import FilterLine.Json.Printer
import FilterLine.Proofs.Json.Grammar

/-!
Printed values are texts of the grammar, in either style and at any level, so reading a printed
value gives it back. Values are taken as they are built: from texts, arrays and objects of values
of which this is known already.
-/
namespace FilterLine.Json

/-- The printer writes the value, whatever the style and the level. -/
def Printed (j : Json) : Prop := ∀ style level, Writes (j.print style level) (.value j)

theorem spell_chars (t : Text) : spell (t.map .char) = some t := by
  induction t with
  | nil => rfl
  | cons c t ih => rw [List.map_cons, spell, ih, Option.map_some]

/-- The escape of a control character is read as that character. -/
theorem hexUnit?_control : ∀ n < 0x20,
    hexUnit? '0' '0' (hexDigit (n / 16)) (hexDigit (n % 16)) = some (.char (Char.ofNat n)) := by
  decide

/-- A printed character spells it. -/
theorem spells_printChar (c : Char) {t : Text} {us : List CodeUnit} (h : Spells t us) :
    Spells (printChar c ++ t) (.char c :: us) := by
  by_cases hq : c = '"'
  · subst hq; exact .escape rfl h
  by_cases hb : c = '\\'
  · subst hb; exact .escape rfl h
  by_cases h₁ : c = '\x08'
  · subst h₁; exact .escape rfl h
  by_cases h₂ : c = '\t'
  · subst h₂; exact .escape rfl h
  by_cases h₃ : c = '\n'
  · subst h₃; exact .escape rfl h
  by_cases h₄ : c = '\x0c'
  · subst h₄; exact .escape rfl h
  by_cases h₅ : c = '\r'
  · subst h₅; exact .escape rfl h
  simp only [printChar, hq, hb, h₁, h₂, h₃, h₄, h₅, if_false]
  by_cases hc : c.toNat < 0x20
  · have hu := hexUnit?_control c.toNat hc
    rw [Char.ofNat_toNat] at hu
    simp only [hc, if_true]
    exact .unicode hu h
  · simp only [hc, if_false]
    exact .plain hq hb (by omega) h

/-- A printed text spells its characters. -/
theorem spells_text (t : Text) : Spells (t.flatMap printChar) (t.map .char) := by
  induction t with
  | nil => exact .nil
  | cons c t ih =>
    rw [List.flatMap_cons, List.map_cons]
    exact spells_printChar c ih

/-- What is printed between items is blank. -/
theorem gap_gap (style : Style) (level : Nat) : Gap (style.gap level) := by
  cases style with
  | compact => exact gap_nil
  | spread =>
    intro c hc
    simp only [Style.gap, List.mem_cons, List.mem_replicate] at hc
    rcases hc with rfl | ⟨-, rfl⟩ <;> rfl

theorem colon_eq (style : Style) : ∃ g, Gap g ∧ style.colon = ':' :: g := by
  cases style with
  | compact => exact ⟨[], gap_nil, rfl⟩
  | spread => exact ⟨[' '], by simp [Gap, isGap], rfl⟩

theorem printed_null : Printed null := fun _ _ => .nullWord

theorem printed_text (t : Text) : Printed (text t) := by
  intro style level
  have h := Writes.string (spells_text t)
  rw [spell_chars] at h
  simpa only [text, print, printString, List.cons_append] using h

/-- The items after the first follow it with a comma each, and the bracket ends them. -/
theorem writes_items (style : Style) (level outer : Nat) (j : Json) (js : List Json)
    (h : ∀ i ∈ j :: js, Printed i) :
    Writes (style.gap level ++ (print style level j ++
      (printItems style level js ++ (style.gap outer ++ [']'])))) (.items (j :: js)) := by
  induction js generalizing j with
  | nil =>
    rw [printItems, List.nil_append]
    exact .lastItem (gap_gap style level) (gap_gap style outer) (h j (by simp) style level)
  | cons k ks ih =>
    have hk := ih k (fun i hi => h i (List.mem_cons_of_mem _ hi))
    have hj := Writes.item (gap_gap style level) gap_nil (h j (by simp) style level) hk
    simpa only [printItems, List.append_assoc, List.cons_append, List.nil_append] using hj

/-- An array is written if its items are, whatever the style. -/
theorem printed_array {js : List Json} (h : ∀ j ∈ js, Printed j) : Printed (array js) := by
  intro style level
  cases js with
  | nil => exact .emptyArray gap_nil
  | cons j js =>
    have hi := Writes.array (writes_items style (level + 1) level j js h)
    simpa only [print, List.append_assoc, List.cons_append] using hi

theorem printed_texts (ts : List Text) : Printed (texts ts) := by
  refine printed_array fun j hj => ?_
  obtain ⟨t, -, rfl⟩ := List.mem_map.mp hj
  exact printed_text t

/-- The entries after the first follow it with a comma each, and the brace ends them. -/
theorem writes_entries (style : Style) (level outer : Nat) (e : Text × Json)
    (es : List (Text × Json)) (h : ∀ i ∈ e :: es, Printed i.2) :
    Writes (style.gap level ++ (printEntry style level (some e.1, e.2) ++
        (printEntries style level (es.map fun e => (some e.1, e.2)) ++
          (style.gap outer ++ ['\x7d']))))
      (.entries ((e :: es).map fun e => (some e.1, e.2))) := by
  obtain ⟨g, hg, hcolon⟩ := colon_eq style
  induction es generalizing e with
  | nil =>
    have he := Writes.lastEntry (gap_gap style level) (spells_text e.1) gap_nil hg
      (h e (by simp) style level) (gap_gap style outer)
    rw [spell_chars] at he
    simpa only [List.map_cons, List.map_nil, printEntries, printEntry, printString, hcolon,
      List.append_assoc, List.cons_append, List.nil_append] using he
  | cons d ds ih =>
    have hd := ih d (fun i hi => h i (List.mem_cons_of_mem _ hi))
    have he := Writes.entry (gap_gap style level) (spells_text e.1) gap_nil hg
      (h e (by simp) style level) gap_nil hd
    rw [spell_chars] at he
    simpa only [List.map_cons, printEntries, printEntry, printString, hcolon, List.append_assoc,
      List.cons_append, List.nil_append] using he

/-- A record is written if its values are, whatever the style. -/
theorem printed_record {es : List (Text × Json)} (h : ∀ e ∈ es, Printed e.2) :
    Printed (record es) := by
  intro style level
  cases es with
  | nil => exact .emptyObject gap_nil
  | cons e es =>
    have hi := Writes.object (writes_entries style (level + 1) level e es h)
    simpa only [record, List.map_cons, print, List.append_assoc, List.cons_append] using hi

/-- What is printed is read back. -/
theorem parse?_print {j : Json} (h : Printed j) (style : Style) (level : Nat) :
    parse? (j.print style level) = some j := by
  simpa using parse?_writes gap_nil (h style level) gap_nil

end FilterLine.Json
