import FilterLine.Line.CommandLine

/-!
One scanner for quotes and backslashes. It reads a text from left to right and marks each character
with the place at which it is read: inside a quoted span or outside, after a backslash that takes it
or not. The count of quotes and the splitting at bare characters are both read off these marks.
-/
namespace FilterLine.Line

/-- Where a scanner stands: inside a quoted span, and behind a backslash that takes what follows. -/
structure Place where
  quoted : Bool := false
  escaped : Bool := false
  deriving DecidableEq, Repr

namespace Place

/-- Whether a character read here is neither quoted nor escaped. -/
def bare (p : Place) : Bool := !p.quoted && !p.escaped

def step (p : Place) (c : Char) : Place :=
  if p.escaped then { p with escaped := false }
  else if c = '\\' then { p with escaped := true }
  else if c = '"' then { p with quoted := !p.quoted }
  else p

def after (p : Place) (t : Text) : Place := t.foldl step p

@[simp] theorem after_nil (p : Place) : p.after [] = p := rfl

@[simp] theorem after_cons (p : Place) (c : Char) (t : Text) :
    p.after (c :: t) = (p.step c).after t := rfl

@[simp] theorem after_append (p : Place) (t u : Text) :
    p.after (t ++ u) = (p.after t).after u := List.foldl_append

theorem bare_iff {p : Place} : p.bare = true ↔ p = {} := by
  obtain ⟨quoted, escaped⟩ := p
  cases quoted <;> cases escaped <;> simp [bare]

@[simp] theorem step_escaped (quoted : Bool) (c : Char) :
    step ⟨quoted, true⟩ c = ⟨quoted, false⟩ := rfl

@[simp] theorem step_backslash (quoted : Bool) : step ⟨quoted, false⟩ '\\' = ⟨quoted, true⟩ := rfl

@[simp] theorem step_quote (quoted : Bool) : step ⟨quoted, false⟩ '"' = ⟨!quoted, false⟩ := rfl

/-- A character that is neither a quote nor a backslash moves nothing. -/
theorem step_plain {c : Char} (hquote : c ≠ '"') (hbackslash : c ≠ '\\') (quoted : Bool) :
    step ⟨quoted, false⟩ c = ⟨quoted, false⟩ := by
  simp [step, hquote, hbackslash]

end Place

/-- A character with the place at which it is read. -/
abbrev Mark := Char × Place

def scan : Place → Text → List Mark
  | _, [] => []
  | p, c :: t => (c, p) :: scan (p.step c) t

def letters (marks : List Mark) : Text := marks.map Prod.fst

@[simp] theorem letters_cons (m : Mark) (marks : List Mark) :
    letters (m :: marks) = m.1 :: letters marks := rfl

@[simp] theorem letters_scan (p : Place) (t : Text) : letters (scan p t) = t := by
  induction t generalizing p with
  | nil => rfl
  | cons c t ih => rw [scan, letters_cons, ih]

/-- Two texts behind each other are marked each from where it stands. -/
theorem scan_append (p : Place) (t u : Text) :
    scan p (t ++ u) = scan p t ++ scan (p.after t) u := by
  induction t generalizing p with
  | nil => rfl
  | cons c t ih => simp [scan, ih]

/-- Whether a mark is that of a bare character which separates. -/
def cuts (separates : Char → Bool) (m : Mark) : Bool := m.2.bare && separates m.1

/-- Whether a character separates only where it may: neither a quote nor a backslash does. -/
structure Separator (separates : Char → Bool) : Prop where
  quote : separates '"' = false
  backslash : separates '\\' = false

theorem separator_blank : Separator isBlank := ⟨by decide, by decide⟩

theorem separator_colon : Separator (· == ':') := ⟨by decide, by decide⟩

namespace Separator

variable {separates : Char → Bool} (h : Separator separates)

include h

/-- Behind a separator the scanner stands outside again. -/
theorem step_of_cuts {c : Char} {p : Place} (hcuts : cuts separates (c, p) = true) :
    p = {} ∧ p.step c = {} := by
  simp only [cuts, Bool.and_eq_true, Place.bare_iff] at hcuts
  obtain ⟨rfl, hc⟩ := hcuts
  have hquote : c ≠ '"' := by
    rintro rfl
    exact absurd hc (by simp [h.quote])
  have hbackslash : c ≠ '\\' := by
    rintro rfl
    exact absurd hc (by simp [h.backslash])
  exact ⟨rfl, Place.step_plain hquote hbackslash false⟩

end Separator

/-- The count of quotes tells whether the scanner ends inside a span. -/
theorem quoted_after (quoted : Bool) (t : Text) :
    (Place.after ⟨quoted, false⟩ t).quoted = (quoted ^^ endsQuoted t) := by
  unfold endsQuoted
  fun_induction unescapedQuotes t generalizing quoted with
  | case1 => simp
  | case2 c r ih => simpa using ih quoted
  | case3 c r hne ih =>
    by_cases hquote : c = '"'
    · subst hquote
      rw [Place.after_cons, Place.step_quote, ih]
      rcases Nat.mod_two_eq_zero_or_one (unescapedQuotes r) with hr | hr <;>
        cases quoted <;> simp [Nat.add_mod, hr]
    · by_cases hbackslash : c = '\\'
      · -- a backslash that is not followed by a character is the last one
        cases r with
        | nil => simp [hbackslash, unescapedQuotes]
        | cons d r => exact absurd rfl (hne d r hbackslash)
      · rw [Place.after_cons, Place.step_plain hquote hbackslash, ih]
        simp [hquote]

/-- A text ends quoted just when the scanner does. -/
theorem endsQuoted_eq (t : Text) : endsQuoted t = (Place.after {} t).quoted := by
  rw [quoted_after, Bool.false_xor]

section Pieces

variable {separates : Char → Bool}

/-- A mark that does not cut goes in front of the first piece. -/
theorem pieces_cons {m : Mark} (h : cuts separates m = false) (marks : List Mark) :
    ((m :: marks).splitOnP (cuts separates)).map letters =
      Text.consFirst m.1 ((marks.splitOnP (cuts separates)).map letters) := by
  rw [List.splitOnP_cons_eq_if_modifyHead, if_neg (by simp [h])]
  obtain ⟨piece, pieces, hpieces⟩ :=
    List.exists_cons_of_ne_nil (List.splitOnP_ne_nil (cuts separates) marks)
  rw [hpieces]
  rfl

/-- Splitting at bare characters is splitting the marks. -/
theorem splitBareFrom_eq (h : Separator separates) (quoted : Bool) (t : Text) :
    splitBareFrom separates quoted t =
      ((scan ⟨quoted, false⟩ t).splitOnP (cuts separates)).map letters := by
  fun_induction splitBareFrom separates quoted t with
  | case1 quoted => rfl
  | case2 quoted c r ih =>
    rw [scan, scan, Place.step_backslash, Place.step_escaped,
      pieces_cons (by simp [cuts, h.backslash]), pieces_cons (by simp [cuts, Place.bare]), ih]
  | case3 quoted r hne ih =>
    rw [scan, Place.step_quote, pieces_cons (by simp [cuts, h.quote]), ih]
  | case4 quoted c r hne hquote hcuts ih =>
    simp only [Bool.and_eq_true, Bool.not_eq_true'] at hcuts
    obtain ⟨rfl, hc⟩ := hcuts
    have hcuts : cuts separates (c, ⟨false, false⟩) = true := by simp [cuts, Place.bare, hc]
    rw [scan, List.splitOnP_cons_eq_if_modifyHead, if_pos hcuts, (h.step_of_cuts hcuts).2, ih]
    rfl
  | case5 quoted c r hne hquote hcuts ih =>
    have hcuts : cuts separates (c, ⟨quoted, false⟩) = false := by
      simpa [cuts, Place.bare] using hcuts
    rw [scan, pieces_cons hcuts, ih]
    by_cases hbackslash : c = '\\'
    · cases r with
      | nil => rfl
      | cons d r => exact absurd rfl (hne d r hbackslash)
    · rw [Place.step_plain hquote hbackslash]

/-- A text is split where its marks cut. -/
theorem splitBare_eq (h : Separator separates) (t : Text) :
    splitBare separates t = ((scan {} t).splitOnP (cuts separates)).map letters :=
  splitBareFrom_eq h false t

end Pieces

section Split

variable {α : Type} {p : α → Bool}

theorem concat_inj {l l' : List α} {a a' : α} (h : l ++ [a] = l' ++ [a']) : l = l' ∧ a = a' := by
  obtain ⟨hinit, hlast⟩ := List.append_inj' h rfl
  exact ⟨hinit, List.singleton_inj.mp hlast⟩

theorem exists_last_piece (p : α → Bool) (l : List α) :
    ∃ init last, l.splitOnP p = init ++ [last] := by
  rcases List.eq_nil_or_concat (l.splitOnP p) with h | ⟨init, last, h⟩
  · exact absurd h (List.splitOnP_ne_nil p l)
  · exact ⟨init, last, by rw [h, List.concat_eq_append]⟩

/-- What is appended goes on with the last piece. -/
theorem splitOnP_append {l : List α} {init : List (List α)} {last : List α}
    (h : l.splitOnP p = init ++ [last]) (r : List α) :
    (l ++ r).splitOnP p = init ++ (r.splitOnP p).modifyHead (last ++ ·) := by
  induction l generalizing init last with
  | nil =>
    have h : [] ++ [_] = init ++ [last] := h
    obtain ⟨rfl, rfl⟩ := concat_inj h
    obtain ⟨piece, pieces, hr⟩ := List.exists_cons_of_ne_nil (List.splitOnP_ne_nil p r)
    simp [hr]
  | cons a l ih =>
    obtain ⟨init', last', h'⟩ := exists_last_piece p l
    rw [List.splitOnP_cons_eq_if_modifyHead, h'] at h
    rw [List.cons_append, List.splitOnP_cons_eq_if_modifyHead, ih h']
    by_cases ha : p a = true
    · rw [if_pos ha, ← List.cons_append] at h
      obtain ⟨rfl, rfl⟩ := concat_inj h
      rw [if_pos ha, List.cons_append]
    · rw [if_neg ha] at h
      rw [if_neg ha]
      cases init' with
      | nil =>
        have h : [] ++ [_] = init ++ [last] := h
        obtain ⟨rfl, rfl⟩ := concat_inj h
        obtain ⟨piece, pieces, hr⟩ := List.exists_cons_of_ne_nil (List.splitOnP_ne_nil p r)
        simp [hr]
      | cons piece pieces =>
        rw [List.cons_append, List.modifyHead_cons, ← List.cons_append] at h
        obtain ⟨rfl, rfl⟩ := concat_inj h
        simp

/-- A last element that does not separate belongs to the last piece. -/
theorem splitOnP_concat {l : List α} {init : List (List α)} {last : List α}
    (h : l.splitOnP p = init ++ [last]) {a : α} (ha : p a = false) :
    (l ++ [a]).splitOnP p = init ++ [last ++ [a]] := by
  rw [splitOnP_append h, List.splitOnP_eq_singleton (by simpa using ha)]
  rfl

/-- The last piece is empty only when there is nothing or the last element separates. -/
theorem last_piece_ne_nil {l : List α} {init : List (List α)} {last : List α}
    (h : l.splitOnP p = init ++ [last]) (hl : l.getLast?.any p = false) (hne : l ≠ []) :
    last ≠ [] := by
  rcases List.eq_nil_or_concat l with rfl | ⟨l, a, rfl⟩
  · exact absurd rfl hne
  · rw [List.concat_eq_append] at h hl
    have ha : p a = false := by simpa using hl
    obtain ⟨init', last', h'⟩ := exists_last_piece p l
    rw [splitOnP_concat h' ha] at h
    obtain ⟨-, rfl⟩ := concat_inj h
    simp

theorem splitOnP_concat_separator (l : List α) {a : α} (ha : p a = true) :
    (l ++ [a]).splitOnP p = l.splitOnP p ++ [[]] := by
  simpa using List.splitOnP_append_cons l [] ha

end Split

end FilterLine.Line
