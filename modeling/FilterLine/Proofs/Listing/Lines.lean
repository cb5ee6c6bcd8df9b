import Mathlib.Data.List.TakeWhile
import FilterLine.Listing.Answer
import FilterLine.Proofs.Text.Name
import FilterLine.Proofs.Text.Splitting

/-!
What is read off the front of a line, and into which lines a text is cut. A reader takes as much as it
can, so what stands behind decides where it stops: behind a word no word character, behind blanks the
start that is looked for.
-/
namespace FilterLine

open Text

namespace Text

/-- A run of characters is as long as it can be when no further one follows. -/
theorem run_append {p : Char → Bool} {w r : Text} (hw : ∀ c ∈ w, p c = true)
    (hr : ∀ c ∈ r.head?, p c = false) :
    (w ++ r).takeWhile p = w ∧ (w ++ r).dropWhile p = r := by
  rw [List.takeWhile_append_of_pos hw, List.dropWhile_append_of_pos hw]
  cases r with
  | nil => simp
  | cons c r =>
    have hc : ¬ p c = true := by simp [hr c rfl]
    rw [List.takeWhile_cons_of_neg hc, List.dropWhile_cons_of_neg hc, List.append_nil]
    exact ⟨rfl, rfl⟩

/-- What stands around a text that neither begins nor ends in it is trimmed off. -/
theorem trimWhile_between {p : Char → Bool} {before body after : Text}
    (hbefore : ∀ c ∈ before, p c = true) (hafter : ∀ c ∈ after, p c = true) (hne : body ≠ [])
    (hhead : ∀ c ∈ body.head?, p c = false) (hlast : ∀ c ∈ body.getLast?, p c = false) :
    trimWhile p (before ++ body ++ after) = body := by
  have hfront : (before ++ (body ++ after)).dropWhile p = body ++ after :=
    (run_append hbefore (by rwa [List.head?_append_of_ne_nil _ hne])).2
  have hback : (after.reverse ++ body.reverse).dropWhile p = body.reverse :=
    (run_append (fun c hc => hafter c (List.mem_reverse.mp hc)) (by rwa [List.head?_reverse])).2
  rw [trimWhile, List.append_assoc, hfront, trimEndWhile, List.reverse_append, hback,
    List.reverse_reverse]

end Text

namespace Listing

variable {t r start : Text}

/-- The characters that lines and tables are written with. -/
def lineMarks : List Char := [' ', '\t', '\n', '\r', '-', '(', ')', ',', ':']

/-- No character that lines and tables are written with is a word character. -/
theorem isWord_of_lineMark {c : Char} (h : c ∈ lineMarks) : isWord c = false := by
  have hmarks : lineMarks.all (!isWord ·) = true := by decide +kernel
  simpa using List.all_eq_true.mp hmarks c h

/-! ### Pieces -/

/-- A name is read up to where the word characters end. -/
theorem word?_append {w : Text} (hw : w.IsName) (hr : ∀ c ∈ r.head?, isWord c = false) :
    word? (w ++ r) = some (w, r) := by
  obtain ⟨htake, hdrop⟩ := run_append hw.word hr
  obtain ⟨c, rest, rfl⟩ := List.exists_cons_of_ne_nil hw.ne_nil
  simp only [word?, htake, hdrop]

/-- The blanks are those up to the start. -/
theorem afterBlanks?_eq_some (hstart : ∃ c rest, start = c :: rest ∧ isBlank c = false) :
    afterBlanks? start t = some r ↔
      ∃ blanks, (∀ c ∈ blanks, isBlank c = true) ∧ t = blanks ++ start ++ r := by
  rw [afterBlanks?, after?_eq_some]
  constructor
  · intro h
    refine ⟨t.takeWhile isBlank, fun c hc => List.mem_takeWhile_imp hc, ?_⟩
    rw [List.append_assoc, ← h, List.takeWhile_append_dropWhile]
  · rintro ⟨blanks, hblanks, rfl⟩
    obtain ⟨c, rest, rfl, hc⟩ := hstart
    rw [List.append_assoc]
    exact (run_append hblanks (by simpa using hc)).2

/-- The tag of a type is what stands in front of the first comma or closing parenthesis. -/
theorem typeTag?_eq_some {tag : Text} : typeTag? t = some tag ↔
    tag ≠ [] ∧ (∀ c ∈ tag, c ≠ ',' ∧ c ≠ ')') ∧
      ∃ stop rest, (stop = ',' ∨ stop = ')') ∧ t = tag ++ stop :: rest := by
  have hstops : ∀ c : Char, (!(c == ',' || c == ')')) = true ↔ c ≠ ',' ∧ c ≠ ')' := by simp
  constructor
  · intro h
    simp only [typeTag?] at h
    split at h
    · cases h
    · cases h
    · rename_i stop rest hdrop hne
      cases h
      refine ⟨fun hnil => hne hnil, fun c hc => (hstops c).mp ?_, stop, rest, ?_, ?_⟩
      · exact List.mem_takeWhile_imp (p := fun c => !(c == ',' || c == ')')) hc
      · have hstop := List.head?_dropWhile_not (fun c => !(c == ',' || c == ')')) t
        rw [hdrop] at hstop
        simpa [Decidable.or_iff_not_imp_left] using hstop
      · rw [← hdrop, List.takeWhile_append_dropWhile]
  · rintro ⟨hne, htag, stop, rest, hstop, rfl⟩
    obtain ⟨htake, hdrop⟩ := run_append (p := fun c => !(c == ',' || c == ')')) (w := tag)
      (r := stop :: rest) (fun c hc => (hstops c).mpr (htag c hc))
      (by simpa [Decidable.or_iff_not_imp_left] using hstop)
    simp only [typeTag?, htake, hdrop]

/-! ### Lines -/

/-- A line without the carriage return at its end. -/
def unreturned (l : Text) : Text := if endsIn '\r' l then l.dropLast else l

/-- The lines are the pieces between the breaks, without the last one if that is empty. -/
theorem lines_eq {init : List Text} {last : Text} (h : splitAll '\n' t = init ++ [last]) :
    lines t = init.map unreturned ++ if last = [] then [] else [last] := by
  rw [lines, h, List.dropLast_concat, List.getLast?_concat]
  cases last with
  | nil => simp [unreturned]
  | cons c l => simp [unreturned]

end Listing
end FilterLine
