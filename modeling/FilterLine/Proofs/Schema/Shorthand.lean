import FilterLine.Schema.Shorthand

/-!
Which literals qualify. Whatever the order in which the enumerations list them, a literal is kept
for an argument exactly when it names no argument and that argument alone lists it; those kept stand
in the order in which they are first met.
-/
namespace FilterLine

namespace Tally

def pairs (listed : List (Text × List Text)) : List (Text × Text) :=
  listed.flatMap fun l => l.2.map (l.1, ·)

def addPair (names : List Text) (t : Tally) (p : Text × Text) : Tally := add names p.1 t p.2

theorem mem_pairs {listed : List (Text × List Text)} {a v : Text} :
    (a, v) ∈ pairs listed ↔ ∃ l ∈ listed, l.1 = a ∧ v ∈ l.2 := by
  simp only [pairs, List.mem_flatMap, List.mem_map, Prod.mk.injEq]
  constructor
  · rintro ⟨l, hl, w, hw, ha, rfl⟩
    exact ⟨l, hl, ha, hw⟩
  · rintro ⟨l, hl, ha, hv⟩
    exact ⟨l, hl, v, hv, ha, rfl⟩

theorem map_pairs (listed : List (Text × List Text)) :
    (pairs listed).map (·.2) = listed.flatMap (·.2) := by
  simp only [pairs, List.map_flatMap, List.map_map]
  congr 1
  funext l
  exact List.map_id _

/-- Counting list by list is counting pair by pair. -/
theorem foldl_addAll (names : List Text) (listed : List (Text × List Text)) (t : Tally) :
    listed.foldl (addAll names) t = (pairs listed).foldl (addPair names) t := by
  induction listed generalizing t with
  | nil => rfl
  | cons l listed ih =>
    have hpairs : pairs (l :: listed) = l.2.map (l.1, ·) ++ pairs listed := rfl
    rw [List.foldl_cons, ih, hpairs, List.foldl_append, List.foldl_map]
    rfl

def Sole (names : List Text) (ps : List (Text × Text)) (v a : Text) : Prop :=
  v ∉ names ∧ ∀ b, (b, v) ∈ ps ↔ b = a

def Shared (ps : List (Text × Text)) (v : Text) : Prop :=
  ∃ a b, (a, v) ∈ ps ∧ (b, v) ∈ ps ∧ a ≠ b

/-- Whether one literal is first met before another. -/
def Earlier (ps : List (Text × Text)) (s s' : EnumShorthand) : Prop :=
  (ps.map (·.2)).idxOf s.literal < (ps.map (·.2)).idxOf s'.literal

/-- What a tally tells about the pairs that it has counted. -/
structure Tells (names : List Text) (ps : List (Text × Text)) (t : Tally) : Prop where
  kept : ∀ v a, ⟨v, a⟩ ∈ t.kept ↔ Sole names ps v a
  banned : ∀ v, v ∈ t.banned ↔ v ∉ names ∧ Shared ps v
  ordered : t.kept.Pairwise (Earlier ps)

variable {names : List Text} {ps : List (Text × Text)} {t : Tally} {a v : Text}

theorem tells_nil (names : List Text) : Tells names [] {} := by
  refine ⟨fun v a => ?_, fun v => ?_, .nil⟩
  · simp [Sole]
  · simp [Shared]

theorem sole_concat_of_ne {w b : Text} (h : w ≠ v) :
    Sole names (ps ++ [(a, v)]) w b ↔ Sole names ps w b := by
  simp [Sole, h]

theorem shared_concat_of_ne {w : Text} (h : w ≠ v) : Shared (ps ++ [(a, v)]) w ↔ Shared ps w := by
  simp [Shared, h]

theorem mem_concat_of_mem (h : (a, v) ∈ ps) (p : Text × Text) :
    p ∈ ps ++ [(a, v)] ↔ p ∈ ps := by
  rw [List.mem_append, List.mem_singleton]
  constructor
  · rintro (hp | rfl)
    · exact hp
    · exact h
  · exact .inl

/-- A sole literal is listed. -/
theorem Sole.mem (h : Sole names ps v a) : (a, v) ∈ ps := (h.2 a).mpr rfl

theorem Sole.not_shared {b : Text} (h : Sole names ps v b) : ¬ Shared ps v := by
  rintro ⟨c, d, hc, hd, hne⟩
  exact hne (((h.2 c).mp hc).trans ((h.2 d).mp hd).symm)

theorem Shared.concat (h : Shared ps v) (p : Text × Text) : Shared (ps ++ [p]) v := by
  obtain ⟨b, c, hb, hc, hne⟩ := h
  exact ⟨b, c, List.mem_append_left _ hb, List.mem_append_left _ hc, hne⟩

/-- A literal that is listed is either kept or banned, unless it names an argument. -/
theorem sole_or_shared (hv : v ∉ names) (h : (a, v) ∈ ps) : Sole names ps v a ∨ Shared ps v := by
  by_cases hsole : ∀ b, (b, v) ∈ ps → b = a
  · exact .inl ⟨hv, fun b => ⟨hsole b, fun hb => hb ▸ h⟩⟩
  · simp only [Classical.not_forall] at hsole
    obtain ⟨b, hb, hne⟩ := hsole
    exact .inr ⟨b, a, hb, h, hne⟩

namespace Tells

/-- What is kept has been listed. -/
theorem listed (h : Tells names ps t) {s : EnumShorthand} (hs : s ∈ t.kept) :
    s.literal ∈ ps.map (·.2) :=
  List.mem_map.mpr ⟨_, ((h.kept _ _).mp hs).mem, rfl⟩

theorem ordered_concat (h : Tells names ps t) (a v : Text) :
    t.kept.Pairwise (Earlier (ps ++ [(a, v)])) := by
  apply h.ordered.imp_of_mem
  intro s s' hs hs' hlt
  unfold Earlier at hlt ⊢
  rw [List.map_append, List.idxOf_append, if_pos (h.listed hs), List.idxOf_append,
    if_pos (h.listed hs')]
  exact hlt

/-- Only what becomes of the literal itself has to be looked at. -/
theorem concat {t' : Tally} (h : Tells names ps t)
    (hkept : ∀ w b, w ≠ v → (⟨w, b⟩ ∈ t'.kept ↔ ⟨w, b⟩ ∈ t.kept))
    (hbanned : ∀ w, w ≠ v → (w ∈ t'.banned ↔ w ∈ t.banned))
    (hsole : ∀ b, ⟨v, b⟩ ∈ t'.kept ↔ Sole names (ps ++ [(a, v)]) v b)
    (hshared : v ∈ t'.banned ↔ v ∉ names ∧ Shared (ps ++ [(a, v)]) v)
    (hordered : t'.kept.Pairwise (Earlier (ps ++ [(a, v)]))) :
    Tells names (ps ++ [(a, v)]) t' := by
  refine ⟨fun w b => ?_, fun w => ?_, hordered⟩
  · by_cases hw : w = v
    · rw [hw]
      exact hsole b
    · rw [hkept w b hw, h.kept, sole_concat_of_ne hw]
  · by_cases hw : w = v
    · rw [hw]
      exact hshared
    · rw [hbanned w hw, h.banned, shared_concat_of_ne hw]

/-- A literal that is kept is listed by its argument alone. -/
theorem find?_eq_some (h : Tells names ps t) {s : EnumShorthand}
    (hs : t.kept.find? (·.literal == v) = some s) : Sole names ps v s.argument := by
  have hliteral : s.literal = v := by simpa using List.find?_some hs
  rw [← h.kept, ← hliteral]
  exact List.mem_of_find?_eq_some hs

/-- A literal that is neither banned nor kept names an argument or is met for the first time. -/
theorem not_listed (h : Tells names ps t) (hbanned : v ∉ t.banned)
    (hfind : t.kept.find? (·.literal == v) = none) (hv : v ∉ names) (b : Text) :
    (b, v) ∉ ps := by
  intro hb
  rcases sole_or_shared hv hb with hsole | hshared
  · have hkept := List.find?_eq_none.mp hfind ⟨v, b⟩ ((h.kept v b).mpr hsole)
    simp at hkept
  · exact hbanned ((h.banned v).mpr ⟨hv, hshared⟩)

/-- A banned literal stays banned. -/
theorem add_banned (h : Tells names ps t) (hv : v ∈ t.banned) (a : Text) :
    Tells names (ps ++ [(a, v)]) t := by
  obtain ⟨hnames, hshared⟩ := (h.banned v).mp hv
  refine h.concat (fun _ _ _ => .rfl) (fun _ _ => .rfl) (fun b => ?_) ?_ (h.ordered_concat a v)
  · rw [h.kept]
    exact iff_of_false (fun hsole => hsole.not_shared hshared)
      fun hsole => hsole.not_shared (hshared.concat _)
  · exact iff_of_true hv ⟨hnames, hshared.concat _⟩

/-- A literal that its argument lists again stays kept. -/
theorem add_again (h : Tells names ps t) (hsole : Sole names ps v a) :
    Tells names (ps ++ [(a, v)]) t := by
  have hmem := mem_concat_of_mem hsole.mem
  refine h.concat (fun _ _ _ => .rfl) (fun _ _ => .rfl) (fun b => ?_) ?_ (h.ordered_concat a v)
  · simp only [h.kept, Sole, hmem]
  · simp only [h.banned, Shared, hmem]

/-- A literal that a second argument lists is banned. -/
theorem add_second {b : Text} (h : Tells names ps t) (hsole : Sole names ps v b) (hne : b ≠ a) :
    Tells names (ps ++ [(a, v)])
      { kept := t.kept.filter (·.literal != v), banned := v :: t.banned } := by
  have hshared : Shared (ps ++ [(a, v)]) v :=
    ⟨b, a, List.mem_append_left _ hsole.mem, by simp, hne⟩
  apply h.concat
  · intro w c hw
    simp [List.mem_filter, hw]
  · intro w hw
    simp [hw]
  · intro c
    exact iff_of_false (by simp) fun hsole => hsole.not_shared hshared
  · exact iff_of_true (by simp) ⟨hsole.1, hshared⟩
  · exact (h.ordered_concat a v).filter _

/-- A literal that names an argument is not kept. -/
theorem add_name (h : Tells names ps t) (hv : v ∈ names) (a : Text) :
    Tells names (ps ++ [(a, v)]) t := by
  refine h.concat (fun _ _ _ => .rfl) (fun _ _ => .rfl) (fun b => ?_) ?_ (h.ordered_concat a v)
  · rw [h.kept]
    exact iff_of_false (fun hsole => hsole.1 hv) fun hsole => hsole.1 hv
  · rw [h.banned]
    exact iff_of_false (fun hshared => hshared.1 hv) fun hshared => hshared.1 hv

/-- A literal that is met for the first time is kept, behind all that were met before. -/
theorem add_first (h : Tells names ps t) (hv : v ∉ names) (hfirst : ∀ b, (b, v) ∉ ps)
    (a : Text) : Tells names (ps ++ [(a, v)]) { t with kept := t.kept ++ [⟨v, a⟩] } := by
  have hlisted : ∀ b, (b, v) ∈ ps ++ [(a, v)] ↔ b = a := fun b => by simp [hfirst b]
  apply h.concat
  · intro w c hw
    simp [hw]
  · exact fun _ _ => .rfl
  · intro c
    have hnot : ⟨v, c⟩ ∉ t.kept := fun hc => hfirst c ((h.kept v c).mp hc).mem
    simp only [List.mem_append, hnot, List.mem_singleton, EnumShorthand.mk.injEq, true_and,
      false_or, Sole, hv, not_false_eq_true, hlisted]
    exact ⟨fun hc b => by rw [hc], fun hb => (hb c).mpr rfl⟩
  · refine iff_of_false (fun hbanned => ?_) fun hshared => ?_
    · obtain ⟨-, b, -, hb, -⟩ := (h.banned v).mp hbanned
      exact hfirst b hb
    · obtain ⟨-, b, c, hb, hc, hne⟩ := hshared
      exact hne (((hlisted b).mp hb).trans ((hlisted c).mp hc).symm)
  · refine List.pairwise_append.mpr ⟨h.ordered_concat a v, by simp, fun s hs s' hs' => ?_⟩
    have hnew : v ∉ ps.map (·.2) := fun hv => by
      obtain ⟨p, hp, rfl⟩ := List.mem_map.mp hv
      exact hfirst p.1 hp
    have hbefore := List.idxOf_lt_length_of_mem (h.listed hs)
    rw [List.mem_singleton.mp hs', Earlier, List.map_append, List.idxOf_append,
      if_pos (h.listed hs), List.idxOf_append, if_neg hnew]
    omega

/-- Counting a pair keeps the tally true. -/
theorem addPair (h : Tells names ps t) (p : Text × Text) :
    Tells names (ps ++ [p]) (addPair names t p) := by
  obtain ⟨a, v⟩ := p
  unfold Tally.addPair add
  by_cases hbanned : v ∈ t.banned
  · rw [if_pos hbanned]
    exact h.add_banned hbanned a
  · rw [if_neg hbanned]
    cases hfind : t.kept.find? (·.literal == v) with
    | some s =>
      have hsole := h.find?_eq_some hfind
      by_cases ha : s.argument = a
      · simp only [if_pos ha]
        exact h.add_again (ha ▸ hsole)
      · simp only [if_neg ha]
        exact h.add_second hsole ha
    | none =>
      by_cases hv : v ∈ names
      · simp only [if_pos hv]
        exact h.add_name hv a
      · simp only [if_neg hv]
        exact h.add_first hv (h.not_listed hbanned hfind hv) a

/-- Counting more pairs keeps telling about all of them. -/
theorem foldl (h : Tells names ps t) (qs : List (Text × Text)) :
    Tells names (ps ++ qs) (qs.foldl (Tally.addPair names) t) := by
  induction qs generalizing ps t with
  | nil => simpa using h
  | cons q qs ih => simpa using ih (h.addPair q)

end Tells
end Tally

namespace EnumShorthand

open Tally

variable {names : List Text} {listed : List (Text × List Text)}

theorem tells_derive (names : List Text) (listed : List (Text × List Text)) :
    ∃ t : Tally, t.kept = derive names listed ∧ Tells names (pairs listed) t := by
  refine ⟨_, rfl, ?_⟩
  rw [foldl_addAll]
  exact (tells_nil names).foldl (pairs listed)

/-- A literal stands for an argument exactly when it names none and no other argument lists it. -/
theorem mem_derive {v a : Text} : ⟨v, a⟩ ∈ derive names listed ↔
    v ∉ names ∧ ∀ b, (∃ l ∈ listed, l.1 = b ∧ v ∈ l.2) ↔ b = a := by
  obtain ⟨t, hkept, htells⟩ := tells_derive names listed
  rw [← hkept, htells.kept, Sole]
  simp only [mem_pairs]

/-- The shorthands stand in the order in which their literals are first listed. -/
theorem pairwise_derive (names : List Text) (listed : List (Text × List Text)) :
    (derive names listed).Pairwise fun s s' =>
      (listed.flatMap (·.2)).idxOf s.literal < (listed.flatMap (·.2)).idxOf s'.literal := by
  obtain ⟨t, hkept, htells⟩ := tells_derive names listed
  rw [← hkept, ← map_pairs]
  exact htells.ordered

theorem nodup_derive (names : List Text) (listed : List (Text × List Text)) :
    ((derive names listed).map (·.literal)).Nodup := by
  rw [List.Nodup, List.pairwise_map]
  apply (pairwise_derive names listed).imp
  intro s s' hlt heq
  rw [heq] at hlt
  exact Nat.lt_irrefl _ hlt

end EnumShorthand
end FilterLine
