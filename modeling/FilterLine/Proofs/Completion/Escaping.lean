import FilterLine.Completion.Paths
import FilterLine.Proofs.Line.Cut

/-!
Escaping the spaces of a path. A text without quotes, without backslashes and without blanks other
than spaces is one word of a line once its spaces are escaped, and undoing the escaping gives it back;
such texts, escaped, are just those in which every backslash stands in front of a space and every
space behind a backslash.
-/
namespace FilterLine

namespace Paths

/-- Whether a text holds no quote, no backslash and no blank but the space. -/
structure Plain (t : Text) : Prop where
  quote : '"' ∉ t
  backslash : '\\' ∉ t
  blank : ∀ c ∈ t, isBlank c = true → c = ' '

instance (t : Text) : Decidable (Plain t) :=
  decidable_of_iff ('"' ∉ t ∧ '\\' ∉ t ∧ t.all (fun c => !isBlank c || c == ' ') = true) (by
    have hall : t.all (fun c => !isBlank c || c == ' ') = true ↔
        ∀ c ∈ t, isBlank c = true → c = ' ' := by
      simp [List.all_eq_true, Classical.or_iff_not_imp_left]
    rw [hall]
    exact ⟨fun h => ⟨h.1, h.2.1, h.2.2⟩, fun h => ⟨h.quote, h.backslash, h.blank⟩⟩)

/-- Whether a text holds no quote and no blank but the space, and its backslashes stand just in front
of its spaces, one in front of each. -/
structure Escaped (t : Text) : Prop where
  quote : '"' ∉ t
  blank : ∀ c ∈ t, isBlank c = true → c = ' '
  space : ∀ a b, t = a ++ ' ' :: b → a.getLast? = some '\\'
  backslash : ∀ a b, t = a ++ '\\' :: b → b.head? = some ' '

variable {s t : Text} {c : Char}

theorem Plain.append (hs : Plain s) (ht : Plain t) : Plain (s ++ t) := by
  refine ⟨?_, ?_, fun c hc => ?_⟩
  · simp [hs.quote, ht.quote]
  · simp [hs.backslash, ht.backslash]
  · rcases List.mem_append.mp hc with hc | hc
    · exact hs.blank c hc
    · exact ht.blank c hc

/-- A text is plain if its characters are those of a plain text. -/
theorem Plain.of_subset (ht : Plain t) (h : s ⊆ t) : Plain s :=
  ⟨fun hmem => ht.quote (h hmem), fun hmem => ht.backslash (h hmem), fun c hc => ht.blank c (h hc)⟩

theorem Plain.tail (h : Plain (c :: t)) : Plain t := h.of_subset (List.subset_cons_self c t)

theorem escape_append (s t : Text) : escape (s ++ t) = escape s ++ escape t :=
  List.flatMap_append

theorem escape_space (t : Text) : escape (' ' :: t) = '\\' :: ' ' :: escape t := rfl

theorem escape_cons (hc : c ≠ ' ') (t : Text) : escape (c :: t) = c :: escape t := by
  simp [escape, hc]

theorem unescape_cons (hc : c ≠ '\\') (t : Text) : unescape (c :: t) = c :: unescape t := by
  rw [unescape]
  rintro r h -
  exact hc h

/-- What has been escaped is read back, unless it held a backslash. -/
theorem unescape_escape (h : '\\' ∉ t) : unescape (escape t) = t := by
  induction t with
  | nil => rfl
  | cons c t ih =>
    have hc : c ≠ '\\' := (List.ne_of_not_mem_cons h).symm
    have ht := ih (List.not_mem_of_not_mem_cons h)
    by_cases hspace : c = ' '
    · rw [hspace, escape_space, unescape, ht]
    · rw [escape_cons hspace, unescape_cons hc, ht]

/-- What follows an ordinary character is escaped too. -/
theorem Escaped.tail (h : Escaped (c :: t)) (hc : c ≠ '\\') : Escaped t := by
  refine ⟨List.not_mem_of_not_mem_cons h.quote, fun d hd => h.blank d (List.mem_cons_of_mem c hd),
    fun a b heq => ?_, fun a b heq => h.backslash (c :: a) b (by rw [heq, List.cons_append])⟩
  have hlast := h.space (c :: a) b (by rw [heq, List.cons_append])
  cases a with
  | nil => exact absurd (Option.some.inj hlast) hc
  | cons d a => simpa using hlast

/-- What follows an escaped space is escaped too. -/
theorem Escaped.tail_space (h : Escaped ('\\' :: ' ' :: t)) : Escaped t := by
  refine ⟨fun hmem => h.quote (by simp [hmem]), fun d hd => h.blank d (by simp [hd]),
    fun a b heq => ?_, fun a b heq => h.backslash ('\\' :: ' ' :: a) b (by rw [heq]; rfl)⟩
  have hlast := h.space ('\\' :: ' ' :: a) b (by rw [heq]; rfl)
  cases a with
  | nil => simp at hlast
  | cons d a => simpa using hlast

/-- What is typed with its spaces escaped is the escaping of a plain text. -/
theorem Escaped.escape_unescape (h : Escaped t) :
    escape (unescape t) = t ∧ Plain (unescape t) := by
  fun_induction unescape t with
  | case1 => exact ⟨rfl, by decide⟩
  | case2 r ih =>
    obtain ⟨heq, hplain⟩ := ih h.tail_space
    refine ⟨by rw [escape_space, heq], ?_⟩
    exact Plain.append (s := [' ']) (by decide) hplain
  | case3 c r hne ih =>
    have hc : c ≠ '\\' := by
      rintro rfl
      obtain ⟨r', rfl⟩ := List.head?_eq_some_iff.mp (h.backslash [] r rfl)
      exact hne r' rfl rfl
    have hspace : c ≠ ' ' := by
      rintro rfl
      simpa using h.space [] r rfl
    obtain ⟨heq, hplain⟩ := ih (h.tail hc)
    refine ⟨by rw [escape_cons hspace, heq], Plain.append (s := [c]) ?_ hplain⟩
    refine ⟨?_, by simpa using hc.symm, fun d hd => h.blank d (by simp_all)⟩
    simpa using (List.ne_of_not_mem_cons h.quote)

theorem Escaped.cons (h : Escaped t) (hc : Plain [c]) (hspace : c ≠ ' ') : Escaped (c :: t) := by
  have hquote : c ≠ '"' := fun heq => hc.quote (by simp [heq])
  have hbackslash : c ≠ '\\' := fun heq => hc.backslash (by simp [heq])
  refine ⟨by simp [hquote.symm, h.quote], fun d hd => ?_, fun a b heq => ?_, fun a b heq => ?_⟩
  · rcases List.mem_cons.mp hd with rfl | hd
    · exact hc.blank d (by simp)
    · exact h.blank d hd
  · cases a with
    | nil => exact absurd (List.cons_eq_cons.mp heq).1 hspace
    | cons d a => simp [List.getLast?_cons, h.space a b (List.cons_eq_cons.mp heq).2]
  · cases a with
    | nil => exact absurd (List.cons_eq_cons.mp heq).1 hbackslash
    | cons d a => exact h.backslash a b (List.cons_eq_cons.mp heq).2

theorem Escaped.cons_space (h : Escaped t) : Escaped ('\\' :: ' ' :: t) := by
  refine ⟨by simp [h.quote], fun d hd => ?_, fun a b heq => ?_, fun a b heq => ?_⟩
  · rcases List.mem_cons.mp hd with rfl | hd
    · exact fun hblank => absurd hblank (by decide)
    · rcases List.mem_cons.mp hd with rfl | hd
      · exact fun _ => rfl
      · exact h.blank d hd
  · match a with
    | [] => simp at heq
    | [d] =>
      obtain ⟨rfl, -⟩ := List.cons_eq_cons.mp heq
      rfl
    | d :: e :: a =>
      have heq := (List.cons_eq_cons.mp (List.cons_eq_cons.mp heq).2).2
      simp [List.getLast?_cons, h.space a b heq]
  · match a with
    | [] =>
      obtain ⟨-, rfl⟩ := List.cons_eq_cons.mp heq
      rfl
    | [d] => simp at heq
    | d :: e :: a => exact h.backslash a b (List.cons_eq_cons.mp (List.cons_eq_cons.mp heq).2).2

/-- Escaping a plain text escapes each space and nothing else. -/
theorem escaped_escape (h : Plain t) : Escaped (escape t) := by
  induction t with
  | nil => exact ⟨by simp [escape], by simp [escape], by simp [escape], by simp [escape]⟩
  | cons c t ih =>
    by_cases hspace : c = ' '
    · rw [hspace, escape_space]
      exact (ih h.tail).cons_space
    · rw [escape_cons hspace]
      exact (ih h.tail).cons (h.of_subset (by simp)) hspace

/-- The scanner reads an escaped text as one piece and stands outside behind it. -/
theorem escape_whole (h : Plain t) :
    Line.Uncut isBlank {} (escape t) ∧ Line.Place.after {} (escape t) = {} := by
  induction t with
  | nil => exact ⟨by simp [escape, Line.Uncut, Line.scan], rfl⟩
  | cons c t ih =>
    obtain ⟨huncut, hafter⟩ := ih h.tail
    by_cases hspace : c = ' '
    · have hpair : Line.Uncut isBlank {} ['\\', ' '] := by
        simp [Line.Uncut, Line.scan, Line.cuts, Line.Place.step, Line.Place.bare,
          Line.separator_blank.backslash]
      subst hspace
      exact ⟨Line.uncut_append (t := ['\\', ' ']).mpr ⟨hpair, huncut⟩, hafter⟩
    · have hblank : isBlank c = false := by
        rw [Bool.eq_false_iff]
        exact fun hc => hspace (h.blank c (by simp) hc)
      have hstep : Line.Place.step {} c = {} :=
        Line.Place.step_plain (List.ne_of_not_mem_cons h.quote).symm
          (List.ne_of_not_mem_cons h.backslash).symm false
      have hafter' : Line.Place.after {} [c] = {} := hstep
      rw [escape_cons hspace]
      refine ⟨Line.uncut_append (t := [c]).mpr ⟨Line.uncut_singleton hblank {}, ?_⟩, ?_⟩
      · rw [hafter']
        exact huncut
      · rw [Line.Place.after_cons, hstep]
        exact hafter

end Paths
end FilterLine
