import FilterLine.Proofs.Listing.Lines
import FilterLine.Proofs.Toml.Strings

/-!
Documents written line by line: blank lines, headers and settings, which are strings and booleans
under keys without quotes. Reading such a document does what its lines say, one after the other.
-/
namespace FilterLine.Toml

inductive Setting where
  | string (t : Text)
  | boolean (b : Bool)

namespace Setting

def value : Setting → Toml
  | string t => .string t
  | boolean b => .boolean b

def write : Setting → Text
  | string t => writeString t
  | boolean b => writeBool b

end Setting

/-- A line of a document. -/
inductive Statement where
  | blank
  | header (key : Text)
  | entry (key : Text) (s : Setting)

/-- A key that needs no quotes. -/
structure Bare (key : Text) : Prop where
  ne_nil : key ≠ []
  bare : ∀ c ∈ key, isBare c = true

instance (key : Text) : Decidable (Bare key) :=
  decidable_of_iff (key.isEmpty = false ∧ key.all isBare = true)
    ⟨fun h => ⟨List.isEmpty_eq_false_iff.mp h.1, List.all_eq_true.mp h.2⟩,
      fun h => ⟨List.isEmpty_eq_false_iff.mpr h.ne_nil, List.all_eq_true.mpr h.bare⟩⟩

namespace Statement

def write : Statement → Text
  | blank => ['\n']
  | header key => '[' :: key ++ [']', '\n']
  | entry key s => key ++ " = " ++ s.write ++ "\n"

def perform (d : Draft) : Statement → Option Draft
  | blank => some d
  | header key => (declareTable [key] d.root).map fun root => ⟨root, [key]⟩
  | entry key s =>
    (within (addPair .header true [key] s.value) d.current d.root).map fun root => ⟨root, d.current⟩

/-- Whether the keys of the line need no quotes. -/
def KeyBare : Statement → Prop
  | blank => True
  | header key | entry key _ => Bare key

end Statement

variable {c : Char} {key rest : Text}

theorem isBare_ne (h : isBare c = true) {d : Char} (hd : isBare d = false) : c ≠ d := by
  rintro rfl
  rw [h] at hd
  cases hd

theorem Bare.exists_head (hkey : Bare key) : ∃ c k, key = c :: k ∧ isBare c = true := by
  obtain ⟨c, k, rfl⟩ := List.exists_cons_of_ne_nil hkey.ne_nil
  exact ⟨c, k, rfl, hkey.bare c List.mem_cons_self⟩

/-- No blank is dropped in front of a key. -/
theorem Bare.skipGap (hkey : Bare key) (r : Text) : skipGap (key ++ r) = key ++ r := by
  obtain ⟨c, k, rfl, hc⟩ := hkey.exists_head
  have hgap : isGap c = false := by
    simp [isGap, isBare_ne hc (d := ' ') (by decide), isBare_ne hc (d := '\t') (by decide)]
  rw [Toml.skipGap, List.cons_append, List.dropWhile_cons_of_neg (by simp [hgap])]

/-- A key ends where no further character belongs to it, and blanks behind it are dropped. -/
theorem readKey_bare (hkey : Bare key) (fuel : Nat) {d : Char} {r r' : Text}
    (hend : isBare c = false) (hskip : Toml.skipGap (c :: r) = d :: r') (hdot : d ≠ '.') :
    readKey (fuel + 1) (key ++ c :: r) = some ([key], d :: r') := by
  obtain ⟨htake, hdrop⟩ := Text.run_append hkey.bare (r := c :: r) (by simpa using hend)
  have hpart : readKeyPart (key ++ c :: r) = some (key, c :: r) := by
    obtain ⟨c', k, rfl, hc⟩ := hkey.exists_head
    rw [readKeyPart, htake, hdrop]
    · rintro r'' heq
      exact isBare_ne hc (d := '"') (by decide) (List.cons_eq_cons.mp heq).1
    · rintro r'' heq
      exact isBare_ne hc (d := '\'') (by decide) (List.cons_eq_cons.mp heq).1
  rw [readKey, hkey.skipGap, hpart, Option.bind_eq_bind, Option.bind_some]
  dsimp only
  rw [hskip]
  split
  · exact absurd (List.cons_eq_cons.mp ‹_›).1 hdot
  · rfl

/-- A written string begins with a quote. -/
theorem writeString_head (t : Text) :
    ∃ c r, writeString t = c :: r ∧ (c = '"' ∨ c = '\'') := by
  rw [writeString]
  cases Quoting.of t with
  | basic | longBasic => exact ⟨_, _, rfl, .inl rfl⟩
  | literal | longLiteral => exact ⟨_, _, rfl, .inr rfl⟩

/-- The line ends behind a value. -/
theorem readValue_write (s : Setting) (fuel depth : Nat) (rest : Text) :
    readValue (fuel + 1) depth (s.write ++ '\n' :: rest) = some (s.value, '\n' :: rest) := by
  cases s with
  | string t =>
    have hread := readString?_writeString t rest
    obtain ⟨c, r, hwrite, hquote⟩ := writeString_head t
    rw [Setting.write, hwrite, List.cons_append]
    rw [hwrite, List.cons_append] at hread
    rcases hquote with rfl | rfl <;>
    · rw [readValue, hread]
      rfl
  | boolean b => cases b <;> rfl

/-- No blank is dropped in front of a value. -/
theorem skipGap_write (s : Setting) (r : Text) : skipGap (s.write ++ r) = s.write ++ r := by
  obtain ⟨c, t, hwrite, hgap⟩ : ∃ c t, s.write = c :: t ∧ isGap c = false := by
    cases s with
    | string t =>
      obtain ⟨c, r, hwrite, rfl | rfl⟩ := writeString_head t <;>
        exact ⟨_, r, hwrite, by decide⟩
    | boolean b => cases b <;> exact ⟨_, _, rfl, by decide⟩
  rw [hwrite, skipGap, List.cons_append, List.dropWhile_cons_of_neg (by simp [hgap])]

/-! ### One line -/

/-- A line does not begin like a list of tables. -/
theorem Bare.ne_bracket (hkey : Bare key) (r r' : Text) : key ++ r ≠ '[' :: r' := by
  obtain ⟨c, k, rfl, hc⟩ := hkey.exists_head
  intro heq
  exact isBare_ne hc (d := '[') (by decide) (List.cons_eq_cons.mp heq).1

/-- A header is read up to its line break. -/
theorem readStatement_header (hkey : Bare key) (d : Draft) (rest : Text) :
    readStatement d ((Statement.header key).write ++ rest) =
      ((Statement.header key).perform d).map (·, '\n' :: rest) := by
  have hwrite : (Statement.header key).write ++ rest = '[' :: (key ++ ']' :: '\n' :: rest) := by
    simp [Statement.write]
  have hread := readKey_bare hkey (key ++ ']' :: '\n' :: rest).length (c := ']') (by decide)
    (show skipGap (']' :: '\n' :: rest) = ']' :: '\n' :: rest from rfl) (by decide)
  rw [hwrite, readStatement, hread, Statement.perform]
  · simp only [Option.bind_eq_bind, Option.bind_some, Text.after?, if_true]
    cases declareTable [key] d.root <;> rfl
  · intro r heq
    exact hkey.ne_bracket _ _ heq

/-- A setting is read up to its line break. -/
theorem readStatement_entry (hkey : Bare key) (s : Setting) (d : Draft) (rest : Text) :
    readStatement d ((Statement.entry key s).write ++ rest) =
      ((Statement.entry key s).perform d).map (·, '\n' :: rest) := by
  have hwrite : (Statement.entry key s).write ++ rest =
      key ++ ' ' :: '=' :: ' ' :: (s.write ++ '\n' :: rest) := by
    simp [Statement.write]
  have hread := readKey_bare hkey (key ++ ' ' :: '=' :: ' ' :: (s.write ++ '\n' :: rest)).length
    (c := ' ') (by decide)
    (show skipGap (' ' :: '=' :: ' ' :: (s.write ++ '\n' :: rest)) =
      '=' :: ' ' :: (s.write ++ '\n' :: rest) from rfl) (by decide)
  have hgap : skipGap (' ' :: (s.write ++ '\n' :: rest)) = s.write ++ '\n' :: rest :=
    skipGap_write s ('\n' :: rest)
  rw [hwrite, readStatement, hread, Statement.perform]
  · simp only [Option.bind_eq_bind, Option.bind_some, Text.after?, if_true, hgap]
    rw [readValue_write]
    simp only [Option.bind_some]
    cases within (addPair .header true [key] s.value) d.current d.root <;> rfl
  · intro r heq
    exact hkey.ne_bracket _ _ heq
  · intro r heq
    exact hkey.ne_bracket _ _ heq

/-! ### Line by line -/

/-- A line that is not blank begins with a bracket or a key. -/
theorem Statement.exists_head {s : Statement} (hs : s.KeyBare) (hblank : s ≠ .blank) :
    ∃ c r, s.write = c :: r ∧ (c = '[' ∨ isBare c = true) := by
  cases s with
  | blank => exact absurd rfl hblank
  | header key => exact ⟨_, _, rfl, .inl rfl⟩
  | entry key v =>
    obtain ⟨c, k, rfl, hc⟩ := Bare.exists_head hs
    exact ⟨c, _, rfl, .inr hc⟩

/-- Nothing is skipped in front of a bracket or a key. -/
theorem skipLines_head (fuel : Nat) (h : c = '[' ∨ isBare c = true) (r : Text) :
    skipLines (fuel + 1) (c :: r) = some (c :: r) := by
  have hne : ∀ d, d ≠ '[' → isBare d = false → c ≠ d := by
    intro d hbracket hd
    rcases h with rfl | hc
    · exact hbracket.symm
    · exact isBare_ne hc hd
  have hskip : skipGap (c :: r) = c :: r := by
    have hgap : isGap c = false := by
      simp [isGap, hne ' ' (by decide) (by decide), hne '\t' (by decide) (by decide)]
    rw [skipGap, List.dropWhile_cons_of_neg (by simp [hgap])]
  have hcomment : afterComment? (c :: r) = some (c :: r) := by
    rw [afterComment?]
    intro r' heq
    exact hne '#' (by decide) (by decide) (List.cons_eq_cons.mp heq).1
  have hbreak : afterBreak? (c :: r) = none := by
    rw [afterBreak?]
    · intro r' heq
      exact hne '\n' (by decide) (by decide) (List.cons_eq_cons.mp heq).1
    · intro r' heq
      exact hne '\r' (by decide) (by decide) (List.cons_eq_cons.mp heq).1
  rw [skipLines, hskip, hcomment, Option.bind_eq_bind, Option.bind_some, hbreak]

theorem readStatements_blank (fuel : Nat) (d : Draft) (rest : Text) :
    readStatements (fuel + 1) d (Statement.blank.write ++ rest) =
      readStatements (fuel + 1) d rest := by
  rw [readStatements, readStatements]
  rfl

/-- A line that is not blank is read as a statement, and the reading goes on behind its break. -/
theorem readStatements_line (fuel : Nat) (d : Draft) {s : Statement} (hs : s.KeyBare)
    (hblank : s ≠ .blank) (rest : Text) :
    readStatements (fuel + 1) d (s.write ++ rest) =
      (s.perform d).bind fun d => readStatements fuel d rest := by
  have hread : readStatement d (s.write ++ rest) = (s.perform d).map (·, '\n' :: rest) := by
    cases s with
    | blank => exact absurd rfl hblank
    | header key => exact readStatement_header hs d rest
    | entry key v => exact readStatement_entry hs v d rest
  obtain ⟨c, r, hwrite, hc⟩ := Statement.exists_head hs hblank
  rw [hwrite, List.cons_append] at hread ⊢
  rw [readStatements, skipLines_head _ hc, Option.bind_eq_bind, Option.bind_some]
  dsimp only
  rw [hread]
  cases s.perform d <;> rfl

/-- Reading a document that is written line by line does what the lines say, one after the other. -/
theorem readStatements_write {lines : List Statement} (hlines : ∀ s ∈ lines, s.KeyBare)
    {fuel : Nat} (hfuel : lines.length < fuel) (d : Draft) :
    readStatements fuel d (lines.flatMap Statement.write) =
      (lines.foldlM Statement.perform d).map Draft.root := by
  induction lines generalizing fuel d with
  | nil =>
    obtain ⟨fuel, rfl⟩ := Nat.exists_eq_add_one_of_ne_zero (Nat.ne_of_gt hfuel)
    rfl
  | cons s lines ih =>
    obtain ⟨fuel, rfl⟩ := Nat.exists_eq_add_one_of_ne_zero (Nat.ne_of_gt (Nat.zero_lt_of_lt hfuel))
    have hrest : ∀ s ∈ lines, s.KeyBare := fun s hs => hlines s (List.mem_cons_of_mem _ hs)
    rw [List.length_cons] at hfuel
    rw [List.flatMap_cons, List.foldlM_cons]
    by_cases hblank : s = .blank
    · rw [hblank, readStatements_blank]
      exact ih hrest (by omega) d
    · rw [readStatements_line fuel d (hlines s List.mem_cons_self) hblank]
      cases s.perform d with
      | none => rfl
      | some d => exact ih hrest (by omega) d

/-- Every line takes at least one character. -/
theorem length_le_write (lines : List Statement) :
    lines.length ≤ (lines.flatMap Statement.write).length := by
  induction lines with
  | nil => exact Nat.le_refl _
  | cons s lines ih =>
    have hs : 1 ≤ s.write.length := by
      cases s with
      | blank => exact Nat.le_refl _
      | header key => simp [Statement.write]
      | entry key v => simp [Statement.write]; omega
    rw [List.flatMap_cons, List.length_append, List.length_cons]
    omega

/-- A document is what its lines make of nothing. -/
theorem parse?_write {lines : List Statement} (hlines : ∀ s ∈ lines, s.KeyBare) :
    parse? (lines.flatMap Statement.write) =
      (lines.foldlM Statement.perform {}).map Draft.root := by
  have hmark : Text.after? ['\ufeff'] (lines.flatMap Statement.write) = none := by
    cases lines with
    | nil => rfl
    | cons s lines =>
      rw [List.flatMap_cons]
      by_cases hblank : s = .blank
      · rw [hblank]
        rfl
      · obtain ⟨c, r, hwrite, hc⟩ := Statement.exists_head (hlines s List.mem_cons_self) hblank
        have hne : '\ufeff' ≠ c := by
          rintro rfl
          revert hc
          decide
        rw [hwrite, List.cons_append, Text.after?, if_neg hne]
  rw [parse?, hmark]
  exact readStatements_write hlines (Nat.lt_succ_of_le (length_le_write lines)) {}

end FilterLine.Toml
