import Mathlib.Tactic.SplitIfs
import FilterLine.Toml.Reader
import FilterLine.Toml.Writer

/-!
Strings are read back from how they are written, in each of the four kinds of quotes. Where the
inside is written with escapes, each character has a spelling that the reader takes as a whole. Over
several lines up to two quotes in a row stand as themselves; where they are the last characters of the
string, the reader sees the closing three first and takes the two behind them for the string's own.
-/
namespace FilterLine.Toml

variable {c : Char} {t u rest : Text} {q : Nat}

/-! ### Strings with escapes -/

/-- The ways in which a character is written between double quotes. -/
inductive Spelled (c : Char) : Text → Prop where
  | plain : c ≠ '"' → c ≠ '\\' → isControl c = false → Spelled c [c]
  | letter {e : Char} : escaped? e = some c → Spelled c ['\\', e]
  | code {x y : Char} : charOf? ['0', '0', x, y] = some c → Spelled c ['\\', 'u', '0', '0', x, y]

/-- A spelled character does not begin with the quote that ends the string. -/
theorem Spelled.head (h : Spelled c u) : ∃ d v, u = d :: v ∧ d ≠ '"' := by
  cases h with
  | plain hquote _ _ => exact ⟨_, _, rfl, hquote⟩
  | letter _ => exact ⟨_, _, rfl, by decide⟩
  | code _ => exact ⟨_, _, rfl, by decide⟩

/-- The escape of a control character stands for that character. -/
theorem charOf?_control (n : Nat) (h : n < 0x20 ∨ n = 0x7F) :
    charOf? ['0', '0', Json.hexDigit (n / 16), (Json.hexDigit (n % 16)).toUpper] =
      some (Char.ofNat n) := by
  have hall : ∀ n < 0x80, n < 0x20 ∨ n = 0x7F →
      charOf? ['0', '0', Json.hexDigit (n / 16), (Json.hexDigit (n % 16)).toUpper] =
        some (Char.ofNat n) := by decide +kernel
  exact hall n (by omega) h

/-- A character that is escaped as the writer does is spelled. -/
theorem spelled_escapeChar (h : c ≠ '"') : Spelled c (escapeChar c) := by
  unfold escapeChar
  split_ifs with hb ht hn hf hr hbackslash hcontrol
  · exact .letter (by rw [hb]; rfl)
  · exact .letter (by rw [ht]; rfl)
  · exact .letter (by rw [hn]; rfl)
  · exact .letter (by rw [hf]; rfl)
  · exact .letter (by rw [hr]; rfl)
  · exact .letter (by rw [hbackslash]; rfl)
  · exact .code (by rw [charOf?_control c.toNat hcontrol, Char.ofNat_toNat])
  · exact .plain h hbackslash (by simp [isControl]; omega)

theorem escaped?_ne {e : Char} (h : escaped? e = some c) : e ≠ 'x' ∧ e ≠ 'u' ∧ e ≠ 'U' := by
  refine ⟨?_, ?_, ?_⟩ <;> rintro rfl <;> cases h

/-- A spelled character is read between quotes. -/
theorem readBasic_spelled (h : Spelled c u) (r : Text) :
    readBasic (u ++ r) = (readBasic r).map (consRead c) := by
  cases h with
  | plain hquote hbackslash hcontrol =>
    have hread : readBasic (c :: r) = if c = '\\' ∨ isControl c then none
        else (readBasic r).map (consRead c) := by
      rw [readBasic] <;> intros <;> contradiction
    rw [List.singleton_append, hread, if_neg (by simp [hbackslash, hcontrol])]
  | @letter e hletter =>
    obtain ⟨hx, hu, hU⟩ := escaped?_ne hletter
    have hread : readBasic ('\\' :: e :: r) =
        (escaped? e).bind fun x => (readBasic r).map (consRead x) := by
      rw [readBasic]
      · rfl
      all_goals intros; contradiction
    exact hread.trans (by rw [hletter, Option.bind_some])
  | @code x y hcode =>
    have hread : readBasic ('\\' :: 'u' :: '0' :: '0' :: x :: y :: r) =
        (charOf? ['0', '0', x, y]).bind fun d => (readBasic r).map (consRead d) := by
      rw [readBasic]
      rfl
    exact hread.trans (by rw [hcode, Option.bind_some])

/-- On one line every quote is escaped. -/
theorem escapeFrom_line (q : Nat) (c : Char) (t : Text) :
    ∃ u, Spelled c u ∧ escapeFrom false q (c :: t) = u ++ escapeFrom false 0 t := by
  by_cases hquote : c = '"'
  · exact ⟨['\\', '"'], .letter (by rw [hquote]; rfl), by simp [escapeFrom, hquote]⟩
  · exact ⟨_, spelled_escapeChar hquote, by simp [escapeFrom, hquote]⟩

/-- The inside of a string is read back up to the closing quote. -/
theorem readBasic_escapeFrom (q : Nat) (t rest : Text) :
    readBasic (escapeFrom false q t ++ '"' :: rest) = some (t, rest) := by
  induction t generalizing q with
  | nil => rfl
  | cons c t ih =>
    obtain ⟨u, hspelled, hu⟩ := escapeFrom_line q c t
    rw [hu, List.append_assoc, readBasic_spelled hspelled, ih]
    rfl

/-! ### Strings with escapes over several lines -/

/-- A quote that no two others follow belongs to the string. -/
theorem readLongBasic_quote {r : Text} (h : ¬ ['"', '"'] <+: r) :
    readLongBasic false ('"' :: r) = (readLongBasic false r).map (consRead '"') := by
  have hread : readLongBasic false ('"' :: r) =
      if false && (isGap '"' || decide ('"' = '\n')) then readLongBasic true r
      else if '"' = '\n' then (readLongBasic false r).map (consRead '"')
      else if '"' = '\\' ∨ isControl '"' then none
      else (readLongBasic false r).map (consRead '"') := by
    rw [readLongBasic]
    · rintro r' - rfl
      exact h ⟨r', rfl⟩
    all_goals
      intros
      contradiction
  exact hread

/-- A spelled character is read in a string over several lines. -/
theorem readLongBasic_spelled (h : Spelled c u) (r : Text) :
    readLongBasic false (u ++ r) = (readLongBasic false r).map (consRead c) := by
  cases h with
  | plain hquote hbackslash hcontrol =>
    have hbreak : c ≠ '\n' := by
      rintro rfl
      cases hcontrol
    have hreturn : c ≠ '\r' := by
      rintro rfl
      cases hcontrol
    have hread : readLongBasic false (c :: r) =
        if false && (isGap c || decide (c = '\n')) then readLongBasic true r
        else if c = '\n' then (readLongBasic false r).map (consRead c)
        else if c = '\\' ∨ isControl c then none
        else (readLongBasic false r).map (consRead c) := by
      rw [readLongBasic] <;> intros <;> contradiction
    rw [List.singleton_append, hread, Bool.false_and, if_neg Bool.false_ne_true, if_neg hbreak,
      if_neg (by simp [hbackslash, hcontrol])]
  | @letter e hletter =>
    obtain ⟨hx, hu, hU⟩ := escaped?_ne hletter
    rw [List.cons_append, List.singleton_append, readLongBasic, hletter]
    all_goals
      intros
      contradiction
  | @code x y hcode =>
    have hread : readLongBasic false ('\\' :: 'u' :: '0' :: '0' :: x :: y :: r) =
        (charOf? ['0', '0', x, y]).bind fun d => (readLongBasic false r).map (consRead d) := by
      rw [readLongBasic]
      rfl
    exact hread.trans (by rw [hcode, Option.bind_some])

theorem readLongBasic_break (r : Text) :
    readLongBasic false ('\n' :: r) = (readLongBasic false r).map (consRead '\n') := by
  rw [readLongBasic]
  · rfl
  all_goals
    intros
    contradiction

/-- A piece of the inside of a string that is read as one character and does not begin with a
quote. -/
structure Reads (c : Char) (u : Text) : Prop where
  head : ∃ d v, u = d :: v ∧ d ≠ '"'
  read : ∀ r, readLongBasic false (u ++ r) = (readLongBasic false r).map (consRead c)

theorem Spelled.reads (h : Spelled c u) : Reads c u := ⟨h.head, readLongBasic_spelled h⟩

/-- Over several lines a quote is escaped if two others stand in front of it. -/
theorem escapeFrom_lines (h : c = '"' → 2 ≤ q) (t : Text) :
    ∃ u, Reads c u ∧ escapeFrom true q (c :: t) = u ++ escapeFrom true 0 t := by
  by_cases hquote : c = '"'
  · have hspelled : Spelled c ['\\', '"'] := .letter (by rw [hquote]; rfl)
    exact ⟨_, hspelled.reads, by simp [escapeFrom, hquote, h hquote]⟩
  by_cases hbreak : c = '\n'
  · refine ⟨['\n'], ⟨⟨'\n', [], rfl, by decide⟩, fun r => ?_⟩, by simp [escapeFrom, hbreak]⟩
    rw [hbreak]
    exact readLongBasic_break r
  · exact ⟨_, (spelled_escapeChar hquote).reads, by simp [escapeFrom, hquote, hbreak]⟩

/-- Up to two quotes in front of something else belong to the string. -/
theorem readLongBasic_quotes (hq : q < 3) {d : Char} (hd : d ≠ '"') (r : Text) :
    readLongBasic false (List.replicate q '"' ++ d :: r) =
      (readLongBasic false (d :: r)).map fun p => (List.replicate q '"' ++ p.1, p.2) := by
  have hone : readLongBasic false ('"' :: d :: r) =
      (readLongBasic false (d :: r)).map (consRead '"') := readLongBasic_quote (by simp [hd.symm])
  have htwo : readLongBasic false ('"' :: '"' :: d :: r) =
      (readLongBasic false ('"' :: d :: r)).map (consRead '"') :=
    readLongBasic_quote (by simp [hd.symm])
  match q with
  | 0 => simp
  | 1 => exact hone
  | 2 =>
    rw [hone, Option.map_map] at htwo
    exact htwo

/-- Up to two quotes in front of the closing ones belong to the string. -/
theorem readLongBasic_closing (hq : q < 3) (rest : Text) :
    readLongBasic false (List.replicate q '"' ++ '"' :: '"' :: '"' :: '\n' :: rest) =
      some (List.replicate q '"', '\n' :: rest) := by
  match q with
  | 0 => cases rest <;> rfl
  | 1 | 2 => rfl

/-- The quotes just written as themselves are put back in front of the rest, so that the reader, who
needs to see three at once, is followed from the first of them. -/
theorem readLongBasic_escapeFrom (hq : q < 3) (t rest : Text) :
    readLongBasic false
        (List.replicate q '"' ++ (escapeFrom true q t ++ '"' :: '"' :: '"' :: '\n' :: rest)) =
      some (List.replicate q '"' ++ t, '\n' :: rest) := by
  induction t generalizing q with
  | nil => simpa [escapeFrom] using readLongBasic_closing hq rest
  | cons c t ih =>
    by_cases hroom : c = '"' ∧ q < 2
    · obtain ⟨rfl, hq⟩ := hroom
      have hnext := ih (q := q + 1) (by omega)
      rw [List.replicate_succ', List.append_assoc, List.append_assoc] at hnext
      simpa [escapeFrom, Nat.not_le.mpr hq] using hnext
    · -- anything else ends the run of quotes, an escaped quote too
      obtain ⟨u, hreads, hu⟩ := escapeFrom_lines (c := c) (q := q)
        (fun hc => Nat.not_lt.mp fun hq => hroom ⟨hc, hq⟩) t
      obtain ⟨d, v, rfl, hd⟩ := hreads.head
      have hrest := ih (q := 0) (by omega)
      rw [List.replicate_zero, List.nil_append, List.nil_append] at hrest
      have hread := hreads.read (escapeFrom true 0 t ++ '"' :: '"' :: '"' :: '\n' :: rest)
      rw [hrest, List.cons_append] at hread
      rw [hu, List.append_assoc, List.cons_append, readLongBasic_quotes hq hd, hread]
      rfl

/-! ### Strings without escapes -/

/-- A string without escapes is read up to its quote. -/
theorem readLiteral_append (h : ∀ c ∈ t, c ≠ '\'' ∧ isControl c = false) (rest : Text) :
    readLiteral (t ++ '\'' :: rest) = some (t, rest) := by
  induction t with
  | nil => rfl
  | cons c t ih =>
    obtain ⟨hquote, hcontrol⟩ := h c List.mem_cons_self
    have hread : readLiteral (c :: (t ++ '\'' :: rest)) = if isControl c then none
        else (readLiteral (t ++ '\'' :: rest)).map (consRead c) := by
      rw [readLiteral]
      intro heq
      exact hquote heq
    rw [List.cons_append, hread, hcontrol, if_neg Bool.false_ne_true,
      ih fun d hd => h d (List.mem_cons_of_mem _ hd)]
    rfl

/-- A character that begins no three quotes belongs to the string. -/
theorem readLongLiteral_cons {r : Text} (hquotes : c = '\'' → ¬ ['\'', '\''] <+: r)
    (hcontrol : c = '\n' ∨ isControl c = false) :
    readLongLiteral (c :: r) = (readLongLiteral r).map (consRead c) := by
  have hread : readLongLiteral (c :: r) =
      if c ≠ '\n' ∧ isControl c then none else (readLongLiteral r).map (consRead c) := by
    rw [readLongLiteral]
    · rintro r' hc rfl
      exact hquotes hc ⟨r', rfl⟩
    · rintro r' rfl -
      simp [isControl] at hcontrol
  rw [hread, if_neg]
  rintro ⟨hbreak, hc⟩
  rcases hcontrol with h | h
  · exact hbreak h
  · rw [hc] at h
    cases h

/-- Without three quotes in a row the string ends where the closing ones are. Up to two quotes in
front of them are its own: no others are read together with the closing ones. -/
theorem readLongLiteral_append (hcontrol : ∀ c ∈ t, c = '\n' ∨ isControl c = false)
    (hquotes : ¬ List.replicate 3 '\'' <:+: t) (rest : Text) :
    readLongLiteral (t ++ '\'' :: '\'' :: '\'' :: '\n' :: rest) = some (t, '\n' :: rest) := by
  induction t with
  | nil => cases rest <;> rfl
  | cons c t ih =>
    have hrest := ih (fun d hd => hcontrol d (List.mem_cons_of_mem _ hd))
      fun h => hquotes (h.trans (List.suffix_cons c t).isInfix)
    by_cases hshort : c = '\'' ∧ (t = [] ∨ t = ['\''])
    · obtain ⟨rfl, rfl | rfl⟩ := hshort <;> rfl
    · rw [List.cons_append, readLongLiteral_cons _ (hcontrol c List.mem_cons_self), hrest]
      · rfl
      rintro rfl hprefix
      match t with
      | [] => exact hshort ⟨rfl, .inl rfl⟩
      | [d] =>
        obtain ⟨hd, -⟩ := List.cons_prefix_cons.mp hprefix
        exact hshort ⟨rfl, .inr (by rw [hd])⟩
      | d :: d' :: t =>
        obtain ⟨hd, hprefix⟩ := List.cons_prefix_cons.mp hprefix
        obtain ⟨hd', -⟩ := List.cons_prefix_cons.mp hprefix
        exact hquotes ⟨[], t, by rw [← hd, ← hd']; rfl⟩

/-! ### The choice of quotes -/

/-- One character of a search for the longest run: the run it ends or continues, and the longest one
so far. -/
def runStep (c : Char) (p : Nat × Nat) (d : Char) : Nat × Nat :=
  if d = c then (p.1 + 1, max p.2 (p.1 + 1)) else (0, p.2)

theorem longestRun_eq (c : Char) (t : Text) : longestRun c t = (t.foldl (runStep c) (0, 0)).2 := rfl

/-- No search forgets a run, and the one it is in counts. -/
theorem foldl_runStep (c : Char) (t : Text) {p : Nat × Nat} (hp : p.1 ≤ p.2) :
    p.2 ≤ (t.foldl (runStep c) p).2 ∧ (t.foldl (runStep c) p).1 ≤ (t.foldl (runStep c) p).2 := by
  induction t generalizing p with
  | nil => exact ⟨Nat.le_refl _, hp⟩
  | cons d t ih =>
    have hstep : p.2 ≤ (runStep c p d).2 ∧ (runStep c p d).1 ≤ (runStep c p d).2 := by
      unfold runStep
      split
      · exact ⟨Nat.le_max_left _ _, Nat.le_max_right _ _⟩
      · exact ⟨Nat.le_refl _, Nat.zero_le _⟩
    obtain ⟨hmore, hrun⟩ := ih hstep.2
    exact ⟨Nat.le_trans hstep.1 hmore, hrun⟩

theorem foldl_runStep_replicate (c : Char) (k : Nat) {p : Nat × Nat} (hp : p.1 ≤ p.2) :
    p.1 + k ≤ ((List.replicate k c).foldl (runStep c) p).2 := by
  induction k generalizing p with
  | zero => exact hp
  | succ k ih =>
    have hstep : runStep c p c = (p.1 + 1, max p.2 (p.1 + 1)) := if_pos rfl
    have hnext := ih (p := runStep c p c) (by rw [hstep]; exact Nat.le_max_right _ _)
    rw [hstep] at hnext
    rw [List.replicate_succ, List.foldl_cons, hstep]
    simp only at hnext
    omega

/-- A run of a character is at most as long as the longest. -/
theorem le_longestRun {k : Nat} (h : List.replicate k c <:+: t) : k ≤ longestRun c t := by
  obtain ⟨before, after, rfl⟩ := h
  rw [longestRun_eq, List.foldl_append, List.foldl_append]
  have hbefore := (foldl_runStep c before (p := (0, 0)) (Nat.le_refl _)).2
  have hrun := foldl_runStep_replicate c k hbefore
  have hafter := foldl_runStep c after
    (foldl_runStep c (List.replicate k c) hbefore).2
  omega

theorem not_mem_of_longestRun (h : longestRun c t = 0) : c ∉ t := by
  intro hmem
  obtain ⟨before, after, rfl⟩ := List.append_of_mem hmem
  have hrun := le_longestRun (k := 1) (c := c) (t := before ++ c :: after)
    ⟨before, after, by simp⟩
  omega

theorem isControl_of_needsEscape (h : needsEscape c = false) : c = '\n' ∨ isControl c = false := by
  simp only [needsEscape, isControl] at h ⊢
  grind

/-- Between single quotes on one line there are no single quotes and no controls. -/
theorem Quoting.of_literal (h : of t = literal) : ∀ c ∈ t, c ≠ '\'' ∧ isControl c = false := by
  have hall : (∀ c ∈ t, needsEscape c = false) ∧ longestRun '\'' t = 0 ∧ '\n' ∉ t := by
    unfold of at h
    simp only at h
    split_ifs at h with _ hliteral
    simpa [and_assoc] using hliteral
  obtain ⟨hcontrols, hsingle, hbreak⟩ := hall
  intro c hc
  constructor
  · rintro rfl
    exact not_mem_of_longestRun hsingle hc
  · rcases isControl_of_needsEscape (hcontrols c hc) with rfl | hcontrol
    · exact absurd hc hbreak
    · exact hcontrol

/-- Between single quotes over several lines there are no three single quotes in a row, and no
controls but line feeds. -/
theorem Quoting.of_longLiteral (h : of t = longLiteral) :
    (∀ c ∈ t, c = '\n' ∨ isControl c = false) ∧ ¬ List.replicate 3 '\'' <:+: t := by
  have hall : (∀ c ∈ t, needsEscape c = false) ∧ longestRun '\'' t ≤ 2 := by
    unfold of at h
    simp only at h
    split_ifs at h with _ _ _ hliteral
    simpa using hliteral
  obtain ⟨hcontrols, hsingle⟩ := hall
  refine ⟨fun c hc => isControl_of_needsEscape (hcontrols c hc), fun hquotes => ?_⟩
  have hrun := le_longestRun hquotes
  omega

/-- A quote that is not followed by two more begins a string on one line. -/
theorem readString?_basic {r : Text} (h : ¬ ['"', '"'] <+: r) :
    readString? ('"' :: r) = readBasic r := by
  rw [readString?]
  rintro r' rfl
  exact h ⟨r', rfl⟩

theorem readString?_literal {r : Text} (h : ¬ ['\'', '\''] <+: r) :
    readString? ('\'' :: r) = readLiteral r := by
  rw [readString?]
  rintro r' rfl
  exact h ⟨r', rfl⟩

/-- A string is read back from how it is written, whichever quotes that takes. -/
theorem readString?_writeString (t rest : Text) :
    readString? (writeString t ++ '\n' :: rest) = some (t, '\n' :: rest) := by
  rw [writeString]
  cases hquoting : Quoting.of t with
  | basic =>
    have hread := readBasic_escapeFrom 0 t ('\n' :: rest)
    rw [← hread, ← readString?_basic]
    · simp
    cases t with
    | nil => simp [escapeFrom]
    | cons c t =>
      obtain ⟨u, hspelled, hu⟩ := escapeFrom_line 0 c t
      obtain ⟨d, v, rfl, hd⟩ := hspelled.head
      simp [hu, hd.symm]
  | literal =>
    have hplain := Quoting.of_literal hquoting
    rw [← readLiteral_append hplain ('\n' :: rest), ← readString?_literal]
    · simp
    cases t with
    | nil => simp
    | cons c t => simp [(hplain c List.mem_cons_self).1.symm]
  | longBasic =>
    have hread := readLongBasic_escapeFrom (q := 0) (by omega) t rest
    simpa [readString?, dropBreak, afterBreak?] using hread
  | longLiteral =>
    obtain ⟨hplain, hquotes⟩ := Quoting.of_longLiteral hquoting
    have hread := readLongLiteral_append hplain hquotes rest
    simpa [readString?, dropBreak, afterBreak?] using hread

end FilterLine.Toml
