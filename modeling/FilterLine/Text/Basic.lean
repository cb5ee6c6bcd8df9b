/-!
A text is a list of characters, and a string literal stands for the text of its characters. The
cuts used everywhere are defined here once: at the first or last occurrence of a character, at
every occurrence, and after a given start. Each loses nothing: its pieces, joined by the
character, are the text again.
-/
namespace FilterLine

abbrev Text := List Char

instance : Coe String Text := ⟨String.toList⟩

instance : LawfulBEq Text := inferInstanceAs (LawfulBEq (List Char))

namespace Text

/-- The parts before and after the first `c`, when there is one. -/
def cutFirst? (c : Char) : Text → Option (Text × Text)
  | [] => none
  | d :: t => if d = c then some ([], t) else (cutFirst? c t).map fun p => (d :: p.1, p.2)

/-- The part before the first `c`, or all of the text. -/
def beforeFirst (c : Char) (t : Text) : Text := t.takeWhile (· ≠ c)

/-- The text up to and including the last `c`, and what follows it. -/
def cutAfterLast (c : Char) (t : Text) : Text × Text :=
  ((t.reverse.dropWhile (· ≠ c)).reverse, (t.reverse.takeWhile (· ≠ c)).reverse)

def consFirst (c : Char) : List Text → List Text
  | [] => [[c]]
  | p :: ps => (c :: p) :: ps

/-- The pieces between the occurrences of `c`: one more than there are occurrences. -/
def splitAll (c : Char) : Text → List Text
  | [] => [[]]
  | d :: t => if d = c then [] :: splitAll c t else consFirst d (splitAll c t)

/-- What follows `start`, when the text begins with it. -/
def after? : (start t : Text) → Option Text
  | [], t => some t
  | _ :: _, [] => none
  | a :: s, b :: t => if a = b then after? s t else none

def join (separator : Text) : List Text → Text
  | [] => []
  | [p] => p
  | p :: q :: ps => p ++ separator ++ join separator (q :: ps)

def trimEndWhile (p : Char → Bool) (t : Text) : Text := (t.reverse.dropWhile p).reverse

def trimWhile (p : Char → Bool) (t : Text) : Text := trimEndWhile p (t.dropWhile p)

def endsIn (c : Char) (t : Text) : Bool := t.getLast? == some c

def decimal (n : Nat) : Text := Nat.toDigits 10 n

/-- A text is cut at the first occurrence. -/
theorem cutFirst?_eq_some {c : Char} {t a b : Text} (h : cutFirst? c t = some (a, b)) :
    t = a ++ c :: b ∧ c ∉ a := by
  induction t generalizing a with
  | nil => simp [cutFirst?] at h
  | cons d t ih =>
    by_cases hd : d = c
    · simp [cutFirst?, hd] at h
      simp [h, hd]
    · simp [cutFirst?, hd] at h
      obtain ⟨a', ha, rfl⟩ := h
      obtain ⟨ht, hc⟩ := ih ha
      exact ⟨by simp [ht], by simp [hc, Ne.symm hd]⟩

theorem cutFirst?_eq_none {c : Char} {t : Text} : cutFirst? c t = none ↔ c ∉ t := by
  induction t with
  | nil => simp [cutFirst?]
  | cons d t ih => by_cases hd : d = c <;> simp [cutFirst?, hd, ih, eq_comm (a := c)]

theorem cutAfterLast_append (c : Char) (t : Text) :
    (cutAfterLast c t).1 ++ (cutAfterLast c t).2 = t := by
  rw [cutAfterLast, ← List.reverse_append, List.takeWhile_append_dropWhile, List.reverse_reverse]

/-- What follows a start stands behind it. -/
theorem after?_eq_some {s t r : Text} : after? s t = some r ↔ t = s ++ r := by
  induction s generalizing t with
  | nil => simp [after?, eq_comm]
  | cons a s ih =>
    cases t with
    | nil => simp [after?]
    | cons b t => by_cases h : a = b <;> simp [after?, h, ih, eq_comm (a := b)]

theorem after?_eq_none {s t : Text} : after? s t = none ↔ ¬ s <+: t := by
  rw [Option.eq_none_iff_forall_ne_some]
  constructor
  · rintro h ⟨r, hr⟩
    exact h r (after?_eq_some.mpr hr.symm)
  · intro h r hr
    exact h ⟨r, (after?_eq_some.mp hr).symm⟩

theorem splitAll_ne_nil (c : Char) (t : Text) : splitAll c t ≠ [] := by
  cases t with
  | nil => simp [splitAll]
  | cons d t =>
    by_cases h : d = c
    · simp [splitAll, h]
    · simp only [splitAll, h, if_false]
      cases splitAll c t <;> simp [consFirst]

end Text
end FilterLine
