import FilterLine.Schema.Table

/-!
Tables and lists of entries. A table is the table of its own entries, so one that is written entry
by entry is read back; and whatever a table holds was put there.
-/
namespace FilterLine.Table

variable {α : Type}

/-- A key beyond all others goes to the end. -/
theorem place_last {key : Text} {value : α} {l : List (Text × α)} (h : ∀ e ∈ l, e.1 < key) :
    place key value l = l ++ [(key, value)] := by
  induction l with
  | nil => rfl
  | cons d r ih =>
    have hd : d.1 < key := h d (by simp)
    have hne : key ≠ d.1 := by
      rintro rfl
      exact List.lt_irrefl _ hd
    have hnlt : ¬ key < d.1 := List.lt_asymm hd
    rw [place, if_neg hne, if_neg hnlt, ih (fun e he => h e (List.mem_cons_of_mem _ he)),
      List.cons_append]

/-- Entries with increasing keys are inserted one behind the other. -/
theorem foldl_insert (t : Table α) (l : List (Text × α)) (h : Increasing (t.entries ++ l)) :
    (l.foldl (fun t e => t.insert e.1 e.2) t).entries = t.entries ++ l := by
  induction l generalizing t with
  | nil => simp
  | cons e l ih =>
    have hlast : ∀ d ∈ t.entries, d.1 < e.1 := fun d hd =>
      (List.pairwise_append.mp h).2.2 d hd e (by simp)
    have hinsert : (t.insert e.1 e.2).entries = t.entries ++ [e] := place_last hlast
    have hrest : Increasing ((t.insert e.1 e.2).entries ++ l) := by
      rw [hinsert, List.append_assoc]
      exact h
    rw [List.foldl_cons, ih _ hrest, hinsert, List.append_assoc]
    rfl

theorem eq_of_entries {t u : Table α} (h : t.entries = u.entries) : t = u := by
  cases t
  cases u
  cases h
  rfl

/-- A table is read back from its entries. -/
theorem ofList_entries (t : Table α) : ofList t.entries = t :=
  eq_of_entries (foldl_insert empty t.entries t.increasing)

theorem mem_insert {t : Table α} {key : Text} {value : α} {e : Text × α}
    (h : e ∈ (t.insert key value).entries) : e = (key, value) ∨ e ∈ t.entries := mem_place h

/-- What is in a table was in it before or has been inserted. -/
theorem mem_foldl_insert {l : List (Text × α)} {t : Table α} {e : Text × α}
    (h : e ∈ (l.foldl (fun t e => t.insert e.1 e.2) t).entries) : e ∈ t.entries ∨ e ∈ l := by
  induction l generalizing t with
  | nil => exact .inl h
  | cons d l ih =>
    rcases ih h with h | h
    · rcases mem_insert h with rfl | h
      · exact .inr (by simp)
      · exact .inl h
    · exact .inr (List.mem_cons_of_mem _ h)

theorem mem_ofList {l : List (Text × α)} {e : Text × α} (h : e ∈ (ofList l).entries) : e ∈ l := by
  rcases mem_foldl_insert h with h | h
  · simp [empty] at h
  · exact h

theorem mem_of_get? {t : Table α} {key : Text} {value : α} (h : t.get? key = some value) :
    (key, value) ∈ t.entries := by
  obtain ⟨l, hl⟩ := t
  simp only [get?] at h ⊢
  clear hl
  induction l with
  | nil => simp at h
  | cons d r ih =>
    obtain ⟨k, v⟩ := d
    by_cases hk : key = k
    · subst hk
      simp only [List.lookup_cons, beq_self_eq_true, Option.some.injEq] at h
      simp [h]
    · have hb : (key == k) = false := by simpa using hk
      simp only [List.lookup_cons, hb] at h
      exact List.mem_cons_of_mem _ (ih h)

/-- An entry put where there was none leaves every answer as it was. -/
theorem get?_insert_of_none {t : Table α} {k key : Text} {v value : α} (hk : t.get? k = none)
    (h : t.get? key = some value) : (t.insert k v).get? key = some value := by
  have hne : key ≠ k := by
    rintro rfl
    rw [hk] at h
    cases h
  rw [get?_insert, if_neg hne, h]

/-! ### The order of the entries -/

/-- A new key adds its entry, wherever that is placed. -/
theorem place_perm {key : Text} {value : α} {l : List (Text × α)} (h : key ∉ l.map Prod.fst) :
    (place key value l).Perm ((key, value) :: l) := by
  induction l with
  | nil => exact .refl _
  | cons d r ih =>
    rw [List.map_cons, List.mem_cons, not_or] at h
    rw [place, if_neg h.1]
    split
    · exact .refl _
    · exact ((ih h.2).cons d).trans (.swap (key, value) d r)

/-- Entries with distinct keys are all in the table. -/
theorem foldl_insert_perm (t : Table α) (l : List (Text × α))
    (h : ((t.entries ++ l).map Prod.fst).Nodup) :
    (l.foldl (fun t e => t.insert e.1 e.2) t).entries.Perm (t.entries ++ l) := by
  induction l generalizing t with
  | nil => simp
  | cons e l ih =>
    have hmiddle : (e :: (t.entries ++ l)).Perm (t.entries ++ e :: l) := List.perm_middle.symm
    have hnodup : ((e :: (t.entries ++ l)).map Prod.fst).Nodup :=
      (hmiddle.map Prod.fst).nodup_iff.mpr h
    have hnot : e.1 ∉ t.entries.map Prod.fst := by
      rw [List.map_cons, List.nodup_cons, List.map_append, List.mem_append, not_or] at hnodup
      exact hnodup.1.1
    have hinsert : ((t.insert e.1 e.2).entries ++ l).Perm (e :: (t.entries ++ l)) :=
      (place_perm hnot).append_right l
    rw [List.foldl_cons]
    exact (ih _ ((hinsert.map Prod.fst).nodup_iff.mpr hnodup)).trans (hinsert.trans hmiddle)

/-- Entries with different keys make the same table in any order. -/
theorem ofList_perm {l l' : List (Text × α)} (h : l.Perm l') (hnodup : (l.map Prod.fst).Nodup) :
    ofList l = ofList l' := by
  have hl : (ofList l).entries.Perm l := foldl_insert_perm empty l hnodup
  have hl' : (ofList l').entries.Perm l' :=
    foldl_insert_perm empty l' ((h.map Prod.fst).nodup_iff.mp hnodup)
  refine eq_of_entries (List.Perm.eq_of_pairwise ?_ (ofList l).increasing (ofList l').increasing
    (hl.trans (h.trans hl'.symm)))
  intro d e _ _ hlt hgt
  exact absurd hgt (List.lt_asymm hlt)

end FilterLine.Table
