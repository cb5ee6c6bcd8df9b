import Mathlib.Data.List.Infix
import FilterLine.Proofs.Listing.Lines

/-!
The names that are marked by colour are all found. A mark opens with a character that stands nowhere
else in its opening and in no name, and what its closing ends in never begins an opening; so no mark
begins inside another, and going on behind a mark passes over none. The names that are found are thus
those that stand in the text between the sequences of their mark, in the order of their places.
-/
namespace FilterLine.Listing

open Text

variable {t : Text}

/-! ### Suffixes -/

/-- Going on behind `k` characters passes over nothing when nothing is read off at them. -/
theorem filterMap_tails_drop {f : Text → Option Text} {k : Nat}
    (h : ∀ i < k, f (t.drop i) = none) :
    t.tails.filterMap f = (t.drop k).tails.filterMap f := by
  induction k generalizing t with
  | zero => rfl
  | succ k ih =>
    cases t with
    | nil => rfl
    | cons c t =>
      have hfirst : f (c :: t) = none := h 0 (by omega)
      rw [List.tails, List.filterMap_cons_none hfirst, List.drop_succ_cons]
      exact ih fun i hi => h (i + 1) (by omega)

/-- What is read off at the suffixes, with the places at which they begin. -/
theorem exists_places (f : Text → Option Text) (t : Text) :
    ∃ found : List (Nat × Text), t.tails.filterMap f = found.map Prod.snd ∧
      found.Pairwise (fun a b => a.1 < b.1) ∧
      ∀ i name, (i, name) ∈ found ↔ i ≤ t.length ∧ f (t.drop i) = some name := by
  induction t with
  | nil =>
    refine ⟨(f []).toList.map (0, ·), ?_, ?_, fun i name => ?_⟩
    · cases h : f [] <;> simp [h]
    · cases h : f [] <;> simp
    · cases h : f [] <;> simp [h, eq_comm]
  | cons c t ih =>
    obtain ⟨found, hfound, hplaces, hmem⟩ := ih
    have hlater : (found.map fun p => (p.1 + 1, p.2)).Pairwise fun a b => a.1 < b.1 := by
      rw [List.pairwise_map]
      exact hplaces.imp fun h => Nat.succ_lt_succ h
    have hmem' : ∀ i name, (i, name) ∈ (found.map fun p => (p.1 + 1, p.2)) ↔
        ∃ j, i = j + 1 ∧ j ≤ t.length ∧ f (t.drop j) = some name := by
      intro i name
      simp only [List.mem_map, Prod.exists, Prod.mk.injEq]
      constructor
      · rintro ⟨j, name', h, rfl, rfl⟩
        exact ⟨j, rfl, (hmem j name').mp h⟩
      · rintro ⟨j, rfl, h⟩
        exact ⟨j, name, (hmem j name).mpr h, rfl, rfl⟩
    rw [List.tails]
    cases hfirst : f (c :: t) with
    | none =>
      refine ⟨_, ?_, hlater, fun i name => ?_⟩
      · rw [List.filterMap_cons_none hfirst, hfound, List.map_map]
        rfl
      · rw [hmem']
        cases i with
        | zero => simp [hfirst]
        | succ i => simp
    | some first =>
      refine ⟨(0, first) :: found.map fun p => (p.1 + 1, p.2), ?_, ?_, fun i name => ?_⟩
      · rw [List.filterMap_cons_some hfirst, hfound, List.map_cons, List.map_map]
        rfl
      · refine List.pairwise_cons.mpr ⟨fun p hp => ?_, hlater⟩
        obtain ⟨j, hj, -⟩ := (hmem' p.1 p.2).mp hp
        omega
      · rw [List.mem_cons, hmem', Prod.mk.injEq]
        cases i with
        | zero => simp [hfirst, eq_comm]
        | succ i => simp

/-! ### Marks -/

namespace Mark

variable {m : Mark} {name : Text} {length : Nat}

def write (m : Mark) (name : Text) : Text := m.opening ++ name ++ m.closing

/-- Whether a text is a name that a mark can be put on. -/
def Fits (m : Mark) (name : Text) : Prop := (∀ c ∈ name, m.letter c = true) ∧ m.admits name = true

/-- What keeps the marks in a text apart: where the letters of a name end, that an opening begins
nowhere but at its first character, and that no mark goes over the end of a line. -/
structure Apart (m : Mark) : Prop where
  opening : ∃ rest, m.opening = '\x1b' :: rest ∧ '\x1b' ∉ rest
  letter : m.letter '\x1b' = false
  ends : ∃ c rest, m.closing = c :: rest ∧ m.letter c = false
  closing : ∀ s ∈ m.closing.tails, s ≠ [] → ¬ s <+: m.opening ∧ ¬ m.opening <+: s
  line : '\n' ∉ m.opening ++ m.closing ∧ m.letter '\n' = false

/-- All marks in use keep apart. -/
theorem apart : filter.Apart ∧ moduleName.Apart ∧ property.Apart ∧ literal.Apart := by
  refine ⟨?_, ?_, ?_, ?_⟩ <;>
    exact ⟨⟨_, rfl, by decide⟩, rfl, ⟨_, _, rfl, rfl⟩, by decide, by decide⟩

/-- A mark stands in front just where a name that fits stands there between its sequences. -/
theorem Apart.here?_eq_some (h : m.Apart) : m.here? t = some (name, length) ↔
    (m.Fits name ∧ m.write name <+: t) ∧ length = (m.write name).length := by
  have hlength : (m.write name).length = m.opening.length + name.length + m.closing.length := by
    simp [write, Nat.add_assoc]
  simp only [here?, Option.bind_eq_bind, Option.bind_eq_some_iff, after?_eq_some]
  constructor
  · rintro ⟨inside, rfl, rest, hrest, hname⟩
    split at hname
    · rename_i hadmits
      cases hname
      refine ⟨⟨⟨fun c hc => List.mem_takeWhile_imp hc, hadmits⟩, rest, ?_⟩, hlength.symm⟩
      rw [write, List.append_assoc _ m.closing, ← hrest, List.append_assoc,
        List.takeWhile_append_dropWhile]
    · cases hname
  · rintro ⟨⟨⟨hletter, hadmits⟩, rest, rfl⟩, rfl⟩
    obtain ⟨c, closing, hclosing, hc⟩ := h.ends
    obtain ⟨htake, hdrop⟩ := run_append (r := m.closing ++ rest) hletter
      (by rw [hclosing]; simpa using hc)
    refine ⟨name ++ (m.closing ++ rest), by simp [write], rest, hdrop, ?_⟩
    rw [htake, if_pos hadmits, hlength]

def name? (m : Mark) (t : Text) : Option Text := (m.here? t).map Prod.fst

/-- A name is marked in front just when it stands there as it is written. -/
theorem Apart.name?_eq_some (h : m.Apart) :
    m.name? t = some name ↔ m.Fits name ∧ m.write name <+: t := by
  simp [name?, h.here?_eq_some]

/-- Inside a mark the opening character stands in the closing only. -/
theorem Apart.suffix_closing (h : m.Apart) (hname : m.Fits name) {front rest : Text}
    (hmark : m.write name = front ++ '\x1b' :: rest) (hfront : front ≠ []) :
    '\x1b' :: rest <:+ m.closing := by
  obtain ⟨opening, hopening, hfresh⟩ := h.opening
  obtain ⟨c, front, rfl⟩ := List.exists_cons_of_ne_nil hfront
  have hletters : '\x1b' ∉ opening ++ name := by
    simp only [List.mem_append, not_or]
    refine ⟨hfresh, fun hmem => ?_⟩
    have hletter := hname.1 _ hmem
    rw [h.letter] at hletter
    cases hletter
  have htail : opening ++ name ++ m.closing = front ++ '\x1b' :: rest := by
    rw [write, hopening] at hmark
    exact (List.cons_eq_cons.mp hmark).2
  obtain ⟨part, -, hclosing⟩ | ⟨part, hpart, hclosing⟩ := List.append_eq_append_iff.mp htail
  · exact ⟨part, hclosing.symm⟩
  · cases part with
    | nil => exact ⟨[], hclosing⟩
    | cons d part =>
      obtain ⟨rfl, -⟩ := List.cons_eq_cons.mp hclosing
      exact absurd (hpart ▸ by simp) hletters

/-- No mark begins inside another. -/
theorem Apart.name?_inside (h : m.Apart) (hname : m.Fits name) (ht : m.write name <+: t) {i : Nat}
    (hpos : 0 < i) (hi : i < (m.write name).length) : m.name? (t.drop i) = none := by
  rw [Option.eq_none_iff_forall_ne_some]
  intro other hother
  obtain ⟨rest, rfl⟩ := ht
  have hopening : m.opening <+: (m.write name).drop i ++ rest := by
    have hprefix := (h.name?_eq_some.mp hother).2
    rw [List.drop_append_of_le_length hi.le, write, List.append_assoc] at hprefix
    exact (List.prefix_append _ _).trans hprefix
  obtain ⟨opening, hcons, -⟩ := h.opening
  obtain ⟨c, inside, hinside⟩ := List.exists_cons_of_ne_nil
    (List.drop_eq_nil_iff.not.mpr (Nat.not_le.mpr hi))
  have hc : c = '\x1b' := by
    rw [hcons, hinside] at hopening
    exact (List.cons_prefix_cons.mp hopening).1.symm
  have hsplit : m.write name = (m.write name).take i ++ '\x1b' :: inside := by
    rw [← hc, ← hinside, List.take_append_drop]
  have hfront : (m.write name).take i ≠ [] := by
    rw [← List.length_pos_iff, List.length_take]
    omega
  have hsuffix : (m.write name).drop i <:+ m.closing := by
    rw [hinside, hc]
    exact h.suffix_closing hname hsplit hfront
  obtain ⟨hnot, hnot'⟩ := h.closing _ ((List.mem_tails _ _).mpr hsuffix) (by simp [hinside])
  rcases List.prefix_or_prefix_of_prefix hopening (List.prefix_append _ _) with h' | h'
  · exact hnot' h'
  · exact hnot h'

/-- The scan finds what is marked at any place behind those it skips. -/
theorem Apart.scan_eq (h : m.Apart) (skip : Nat) (t : Text) :
    m.scan skip t = (t.drop skip).tails.filterMap m.name? := by
  have hnil : m.name? [] = none := by
    obtain ⟨rest, hopening, -⟩ := h.opening
    simp [name?, here?, hopening, after?]
  fun_induction scan m skip t with
  | case1 skip => simp [hnil]
  | case2 skip c r ih => exact ih
  | case3 c r name length hhere ih =>
    obtain ⟨⟨hname, hprefix⟩, rfl⟩ := h.here?_eq_some.mp hhere
    have hfirst : m.name? (c :: r) = some name := by rw [name?, hhere]; rfl
    rw [ih, List.drop_zero, List.tails, List.filterMap_cons_some hfirst]
    congr 1
    refine (filterMap_tails_drop fun i hi => ?_).symm
    exact h.name?_inside (i := i + 1) hname hprefix (by omega) (by omega)
  | case4 c r hhere ih =>
    have hfirst : m.name? (c :: r) = none := by rw [name?, hhere]; rfl
    rw [ih, List.drop_zero, List.drop_zero, List.tails, List.filterMap_cons_none hfirst]

end Mark

/-- Whether names are those that stand in a text as they are written: one at each place, in the order
of the places, and no others. -/
def StandIn (valid : Text → Prop) (write : Text → Text) (t : Text) (names : List Text) : Prop :=
  ∃ found : List (Nat × Text), names = found.map Prod.snd ∧
    found.Pairwise (fun a b => a.1 < b.1) ∧
    ∀ i name, (i, name) ∈ found ↔ valid name ∧ write name <+: t.drop i

theorem StandIn.congr {valid valid' : Text → Prop} {write write' : Text → Text} {names : List Text}
    (h : StandIn valid write t names) (hvalid : ∀ name, valid name ↔ valid' name)
    (hwrite : ∀ name, write name = write' name) : StandIn valid' write' t names := by
  obtain ⟨found, hfound, hplaces, hmem⟩ := h
  exact ⟨found, hfound, hplaces, fun i name => by rw [hmem, hvalid, hwrite]⟩

namespace Mark

variable {m : Mark}

/-- The names are those marked at some place of the text, in the order of the places. -/
theorem Apart.names_eq (h : m.Apart) (t : Text) :
    m.names t = t.tails.filterMap fun s => (m.name? s).filter (· ≠ []) := by
  rw [names, h.scan_eq, List.filter_filterMap]
  rfl

/-- Every marked name is found, and nothing else: at a place behind the end nothing stands. -/
theorem Apart.standIn (h : m.Apart) (t : Text) :
    StandIn (fun name => name ≠ [] ∧ m.Fits name) m.write t (m.names t) := by
  obtain ⟨found, hfound, hplaces, hmem⟩ :=
    exists_places (fun s => (m.name? s).filter (· ≠ [])) t
  refine ⟨found, (h.names_eq t).trans hfound, hplaces, fun i name => ?_⟩
  rw [hmem, Option.filter_eq_some_iff, h.name?_eq_some, decide_eq_true_eq]
  constructor
  · rintro ⟨-, ⟨hfits, hprefix⟩, hne⟩
    exact ⟨⟨hne, hfits⟩, hprefix⟩
  · rintro ⟨⟨hne, hfits⟩, hprefix⟩
    refine ⟨?_, ⟨hfits, hprefix⟩, hne⟩
    by_contra hlong
    rw [List.drop_eq_nil_iff.mpr (by omega), List.prefix_nil] at hprefix
    simp [write, hne] at hprefix

/-- A text without line breaks stands at the start of a line only within that line. -/
theorem prefix_line {u s : Text} (hu : '\n' ∉ u) : u <+: s ++ '\n' :: t ↔ u <+: s := by
  constructor
  · intro h
    rcases List.prefix_or_prefix_of_prefix h (List.prefix_append _ _) with h' | ⟨v, rfl⟩
    · exact h'
    · rw [List.prefix_append_right_inj] at h
      cases v with
      | nil => rw [List.append_nil]
      | cons c v =>
        obtain ⟨rfl, -⟩ := List.cons_prefix_cons.mp h
        exact absurd (by simp) hu
  · exact fun h => h.trans (List.prefix_append _ _)

/-- The end of a line ends every mark. -/
theorem Apart.name?_line (h : m.Apart) (s t : Text) : m.name? (s ++ '\n' :: t) = m.name? s := by
  apply Option.ext
  intro name
  rw [h.name?_eq_some, h.name?_eq_some]
  apply and_congr_right
  intro hfits
  have hname : '\n' ∉ name := by
    intro hmem
    have hletter := hfits.1 _ hmem
    rw [h.line.2] at hletter
    cases hletter
  have hline := h.line.1
  simp only [List.mem_append, not_or] at hline
  apply prefix_line
  simp [write, hname, hline]

/-- Lines are read each for itself. -/
theorem Apart.names_line (h : m.Apart) (s t : Text) :
    m.names (s ++ '\n' :: t) = m.names s ++ m.names t := by
  simp only [h.names_eq, List.tails_append, List.filterMap_append, List.filterMap_map,
    Function.comp_def, h.name?_line, List.tails, List.tail_cons]

end Mark

/-! ### Headers -/

/-- Whether a text begins with the header of an argument: its name in green, and behind blanks, in
parentheses, the tag of its type in front of anything else. -/
def Headed (name tag t : Text) : Prop :=
  ∃ blanks stop rest, (∀ c ∈ blanks, isBlank c = true) ∧
    (tag ≠ [] ∧ ∀ c ∈ tag, c ≠ ',' ∧ c ≠ ')') ∧ (stop = ',' ∨ stop = ')') ∧
    t = ("\x1b[32m" : Text) ++ name ++ ("\x1b[0m" : Text) ++ blanks ++ '(' :: tag ++ stop :: rest

/-- The type of an argument is that of its header. -/
theorem argumentKind?_eq_some {name : Text} {k : ArgType} :
    argumentKind? name t = some k ↔ ∃ tag, Headed name tag t ∧ ArgType.ofTag tag = k := by
  have hparenthesis : ∃ c rest, (['('] : Text) = c :: rest ∧ isBlank c = false :=
    ⟨'(', [], rfl, by decide⟩
  simp only [argumentKind?, Option.bind_eq_bind, Option.bind_eq_some_iff, Option.map_eq_some_iff,
    after?_eq_some, afterBlanks?_eq_some hparenthesis, typeTag?_eq_some]
  constructor
  · rintro ⟨-, rfl, -, ⟨blanks, hblanks, rfl⟩, tag, ⟨hne, htag, stop, rest, hstop, rfl⟩, rfl⟩
    exact ⟨tag, ⟨blanks, stop, rest, hblanks, ⟨hne, htag⟩, hstop, by simp [green, plain]⟩, rfl⟩
  · rintro ⟨tag, ⟨blanks, stop, rest, hblanks, ⟨hne, htag⟩, hstop, rfl⟩, rfl⟩
    exact ⟨blanks ++ '(' :: tag ++ stop :: rest, by simp [green, plain], tag ++ stop :: rest,
      ⟨blanks, hblanks, by simp⟩, tag, ⟨hne, htag, stop, rest, hstop, rfl⟩, rfl⟩

theorem kind_argumentDetail (name t : Text) :
    (argumentDetail name t).kind = argumentKind? name t := by
  unfold argumentDetail
  split <;> simp_all

/-- Only an enumeration has literals. -/
theorem values_argumentDetail (name t : Text) : (argumentDetail name t).values =
    if (argumentDetail name t).kind = some .enum then Mark.literal.names t else [] := by
  unfold argumentDetail
  split <;> simp_all

/-- The name of a property has letters only, the first a capital. -/
theorem fits_property (name : Text) : name ≠ [] ∧ Mark.property.Fits name ↔
    ∃ c rest, name = c :: rest ∧ c.isUpper = true ∧ ∀ d ∈ rest, d.isAlpha = true := by
  cases name with
  | nil => simp
  | cons c rest =>
    simp only [Mark.Fits, Mark.property, List.head?_cons, Option.any_some, List.cons.injEq]
    constructor
    · rintro ⟨-, hletters, hupper⟩
      exact ⟨c, rest, ⟨rfl, rfl⟩, hupper, fun d hd => hletters d (List.mem_cons_of_mem c hd)⟩
    · rintro ⟨_, _, ⟨rfl, rfl⟩, hupper, hletters⟩
      refine ⟨List.cons_ne_nil c rest, fun d hd => ?_, hupper⟩
      rcases List.mem_cons.mp hd with rfl | hd
      · exact Bool.or_eq_true_iff.mpr (.inl hupper)
      · exact hletters d hd

/-- The names of filters, modules, properties and literals in an output are those that stand in it
between the sequences of their colour, in the order of their places. So the answer for a text made of
lines is made of the answers for its parts. Literals are listed for an enumeration only, which is what
the header in front says. -/
theorem marked_names_exact (t : Text) :
    StandIn (fun name => name ≠ [] ∧ ∀ c ∈ name, c.isAlphanum = true)
        (fun name => ("\x1b[32m" : Text) ++ name ++ (":\x1b[0m" : Text)) t (answer .filters t) ∧
      StandIn (fun name => name ≠ [] ∧ ∀ c ∈ name, c.isAlphanum = true ∨ c = '.' ∨ c = '_')
        (fun name => ("\x1b[32m" : Text) ++ name ++ (":\x1b[0m" : Text)) t (answer .modules t) ∧
      StandIn (fun name => ∃ c rest, name = c :: rest ∧ c.isUpper = true ∧
          ∀ d ∈ rest, d.isAlpha = true)
        (fun name => ("\x1b[32m" : Text) ++ name ++ ("\x1b[0m" : Text)) t (answer .props t) ∧
      (∀ filter name,
        ((answer (.argument filter name) t).kind = some .enum ↔
          ∃ tag, Headed name tag t ∧ ArgType.ofTag tag = .enum) ∧
        if (answer (.argument filter name) t).kind = some .enum then
          StandIn (fun literal => literal ≠ [] ∧ ∀ c ∈ literal, c.isAlphanum = true)
            (fun literal => ("\x1b[33m" : Text) ++ literal ++ ("\x1b[0m:" : Text)) t
            (answer (.argument filter name) t).values
        else (answer (.argument filter name) t).values = []) ∧
      ∀ s, answer .filters (s ++ '\n' :: t) = answer .filters s ++ answer .filters t ∧
        answer .modules (s ++ '\n' :: t) = answer .modules s ++ answer .modules t ∧
        answer .props (s ++ '\n' :: t) = answer .props s ++ answer .props t := by
  obtain ⟨hfilter, hmodule, hproperty, hliteral⟩ := Mark.apart
  refine ⟨?_, ?_, ?_, fun filter name => ?_, fun s => ?_⟩
  · exact (hfilter.standIn t).congr (by simp [Mark.Fits, Mark.filter, isAlphanumeric])
      fun _ => rfl
  · exact (hmodule.standIn t).congr
      (by simp [Mark.Fits, Mark.moduleName, isAlphanumeric, or_assoc]) fun _ => rfl
  · exact (hproperty.standIn t).congr fits_property fun _ => rfl
  · simp only [answer]
    refine ⟨?_, ?_⟩
    · rw [kind_argumentDetail]
      exact argumentKind?_eq_some
    · rw [values_argumentDetail]
      split
      · exact (hliteral.standIn t).congr
          (by simp +contextual [Mark.Fits, Mark.literal, isAlphanumeric]) fun _ => rfl
      · rfl
  · exact ⟨hfilter.names_line s t, hmodule.names_line s t, hproperty.names_line s t⟩

/-- An opening that no name follows hides nothing, and a name without its colon is none. -/
example : answer .filters ("\x1b[32m\x1b[32ma:\x1b[0m\x1b[32mb\x1b[0m" : Text) = [("a" : Text)] := by
  decide

end FilterLine.Listing
