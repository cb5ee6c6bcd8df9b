import FilterLine.Proofs.Completion.Spelling

/-!
Where the candidates of a clause come from. Each is made in one of a few ways from the fragment that
is typed: a name that begins with it, the fragment itself with a separator behind it, or, for a
string without quotes, the fragment put into quotes.
-/
namespace FilterLine

/-- The text that a clause completes: the word itself if it is a single segment, else its last
segment, or what follows the first `=` of that. -/
def fragment (word : Text) : Text :=
  match (Line.segments word).tail.getLast? with
  | none => word
  | some last =>
    match Text.cutFirst? '=' last with
    | some (_, value) => value
    | none => last

/-- In a word without options the whole word is completed. -/
theorem fragment_of_single {word filter : Text} (h : Line.segments word = [filter]) :
    fragment word = word := by
  simp [fragment, h]

/-- In an assignment the value is completed. -/
theorem fragment_of_value {word last name value : Text}
    (h : (Line.segments word).tail.getLast? = some last)
    (hcut : Text.cutFirst? '=' last = some (name, value)) : fragment word = value := by
  simp [fragment, h, hcut]

/-- In an option without a value the option is completed. -/
theorem fragment_of_name {word last : Text} (h : (Line.segments word).tail.getLast? = some last)
    (hlast : '=' ∉ last) : fragment word = last := by
  simp [fragment, h, Text.cutFirst?_eq_none.mpr hlast]

@[simp] theorem mem_startingWith {start c : Text} {items : List Text} :
    c ∈ startingWith start items ↔ c ∈ items ∧ start <+: c := by
  simp [startingWith]

/-- Whether the value of a string argument is typed, without any quote so far. -/
def StringTyped (answer : (q : Question) → q.Answer) (word : Text) : Prop :=
  ∃ filter name spec, (Line.segments word).head? = some filter ∧
    (Line.segments word).tail.getLast? = some (name ++ '=' :: fragment word) ∧ '=' ∉ name ∧
    (answer (.filterArgs filter)).find? (·.name == name) = some spec ∧
    (answer (.argument filter name)).kind.getD spec.kind ∈ [ArgType.str, ArgType.cstr] ∧
    Line.unescapedQuotes (fragment word) = 0

/-- The ways in which a candidate of a clause is made, when the names and literals are of some
kind. -/
inductive Offer (name : Text → Prop) (answer : (q : Question) → q.Answer) (word : Text)
    (quoteSynthesized : Bool) : Text → Prop where
  /-- A name or literal. -/
  | named {t : Text} : name t → fragment word <+: t → Offer name answer word quoteSynthesized t
  /-- A property. -/
  | property {t : Text} : name t → fragment word <+: '#' :: t →
      Offer name answer word quoteSynthesized ('#' :: t)
  /-- The fragment, ended. -/
  | ended {c : Char} : c = ':' ∨ c = ' ' →
      Offer name answer word quoteSynthesized (fragment word ++ [c])
  /-- The only name that begins with the last option, ended. -/
  | switch {only : Text} {c : Char} : (Line.segments word).tail.getLast? = some (fragment word) →
      name only → fragment word <+: only → c = ':' ∨ c = ' ' →
      Offer name answer word quoteSynthesized (only ++ [c])
  /-- The last option, about to be given a value. -/
  | assigned : (Line.segments word).tail.getLast? = some (fragment word) → name (fragment word) →
      Offer name answer word quoteSynthesized (fragment word ++ ['='])
  /-- The list as it is. -/
  | list : Offer name answer word quoteSynthesized (fragment word)
  /-- The list, going on. -/
  | item : Offer name answer word quoteSynthesized (fragment word ++ [','])
  /-- The string without the quote that was synthesized. -/
  | reopened : quoteSynthesized = true →
      Offer name answer word quoteSynthesized (fragment word).dropLast
  /-- The string put into quotes and ended. -/
  | quoted {c : Char} : quoteSynthesized = false → StringTyped answer word → c = ':' ∨ c = ' ' →
      Offer name answer word quoteSynthesized ('"' :: fragment word ++ ['"', c])
  /-- The string behind a quote. -/
  | opened : quoteSynthesized = false → StringTyped answer word →
      Offer name answer word quoteSynthesized ('"' :: fragment word)

/-- Whether names and literals are of some kind, no literal holds a `=`, and no paths are offered. -/
structure Vocabulary (name literal : Text → Prop) (answer : (q : Question) → q.Answer) : Prop where
  spelled : Spelled name literal answer
  literal : ∀ t, literal t → name t ∧ '=' ∉ t
  switch : ∀ t ∈ [("true" : Text), ("false" : Text)], name t
  pathless : ∀ start, answer (.paths start) = []

/-- A clause with what the answers tell about its filter. -/
abbrev Clause.told (answer : (q : Question) → q.Answer) (filter : Text) (options : List Text) :
    Clause := ⟨filter, options, answer (.filterArgs filter), answer (.shorthands filter)⟩

section Offers

variable {name literal : Text → Prop} {answer : (q : Question) → q.Answer} {word c : Text}
  {quoteSynthesized : Bool}

theorem offer_enum {values : List Text} (hvalues : ∀ v ∈ values, name v)
    (h : c ∈ enumCandidates values (fragment word)) :
    Offer name answer word quoteSynthesized c := by
  rcases List.mem_append.mp h with h | h
  · obtain ⟨v, hv, rfl⟩ := List.mem_map.mp h
    obtain ⟨hmem, hstarts⟩ := mem_startingWith.mp hv
    split
    · rename_i heq
      rw [heq]
      exact .ended (.inr rfl)
    · exact .named (hvalues v hmem) hstarts
  · split at h
    · rw [List.mem_singleton.mp h]
      exact .ended (.inl rfl)
    · exact absurd h List.not_mem_nil

theorem offer_list (h : c ∈ listCandidates (fragment word)) :
    Offer name answer word quoteSynthesized c := by
  unfold listCandidates at h
  split at h
  · exact absurd h List.not_mem_nil
  · split at h
    · rw [List.mem_singleton.mp h]
      exact .list
    · simp only [List.mem_cons, List.not_mem_nil, or_false] at h
      rcases h with rfl | rfl | rfl
      · exact .list
      · exact .item
      · exact .ended (.inl rfl)

theorem offer_scalar (h : c ∈ scalarCandidates (fragment word)) :
    Offer name answer word quoteSynthesized c := by
  unfold scalarCandidates at h
  split at h
  · exact absurd h List.not_mem_nil
  · simp only [List.mem_cons, List.not_mem_nil, or_false] at h
    rcases h with rfl | rfl
    · exact .ended (.inl rfl)
    · exact .ended (.inr rfl)

/-- The candidates of a string are the string with its quote open or closed. -/
theorem offer_string (htyped : Line.unescapedQuotes (fragment word) = 0 → StringTyped answer word)
    (h : c ∈ stringCandidates (fragment word) quoteSynthesized) :
    Offer name answer word quoteSynthesized c := by
  cases quoteSynthesized with
  | true =>
    simp only [stringCandidates, if_true, List.mem_cons, List.not_mem_nil, or_false] at h
    rcases h with rfl | rfl | rfl
    · split
      · exact .reopened rfl
      · exact .list
    · exact .ended (.inl rfl)
    · exact .ended (.inr rfl)
  | false =>
    simp only [stringCandidates, Bool.false_eq_true, if_false] at h
    split at h
    · simp only [List.mem_cons, List.not_mem_nil, or_false] at h
      rcases h with rfl | rfl
      · exact .ended (.inl rfl)
      · exact .ended (.inr rfl)
    · have hstring := htyped (by omega)
      simp only [List.mem_cons, List.not_mem_nil, or_false] at h
      rcases h with rfl | rfl | rfl
      · exact .quoted rfl hstring (.inl rfl)
      · exact .quoted rfl hstring (.inr rfl)
      · exact .opened rfl hstring

/-- The candidates for a value are offered in one of these ways. -/
theorem offer_value (hwords : Vocabulary name literal answer) {filter : Text}
    {spec : ArgumentSpec}
    (htyped : (answer (.argument filter spec.name)).kind.getD spec.kind ∈
      [ArgType.str, ArgType.cstr] → Line.unescapedQuotes (fragment word) = 0 →
      StringTyped answer word)
    (h : c ∈ (valueCandidates filter spec (fragment word) quoteSynthesized).eval answer) :
    Offer name answer word quoteSynthesized c := by
  rw [valueCandidates, Inquiry.eval_bind', Inquiry.eval_question] at h
  have hvalues : ∀ v ∈ (answer (.argument filter spec.name)).values, name v :=
    fun v hv => (hwords.literal v (hwords.spelled.values filter spec.name v hv)).1
  cases hkind : (answer (.argument filter spec.name)).kind.getD spec.kind with
  | bool =>
    rw [hkind] at h
    exact offer_enum hwords.switch h
  | enum =>
    rw [hkind] at h
    exact offer_enum hvalues h
  | strl =>
    rw [hkind] at h
    exact offer_list h
  | str | cstr =>
    rw [hkind] at h htyped
    refine offer_string (htyped (by simp)) ?_
    by_cases hsource : spec.name = sourceArgument
    · have hnone : (Inquiry.question (.paths (Text.trimWhile (· == '"') (fragment word)))).eval
          answer = [] := hwords.pathless _
      simpa [if_pos hsource, hnone] using h
    · simpa [if_neg hsource] using h
  | _ =>
    rw [hkind] at h
    exact offer_scalar h

/-- Properties are offered behind their mark. -/
theorem offer_property (hspelled : Spelled name literal answer) {text : Text}
    (hlast : (Line.segments word).tail.getLast? = some ('#' :: text)) (earlier : List Text)
    (h : c ∈ (propertyCandidates text earlier).eval answer) :
    Offer name answer word quoteSynthesized c := by
  unfold propertyCandidates at h
  split at h
  · rename_i t value hcut
    have hassign : Text.cutFirst? '=' ('#' :: text) = some ('#' :: t, value) := by
      simp [Text.cutFirst?, hcut]
    have hfragment := fragment_of_value hlast hassign
    rw [← hfragment] at h
    exact offer_scalar h
  · rename_i hcut
    have hfragment : fragment word = '#' :: text :=
      fragment_of_name hlast (by simpa using Text.cutFirst?_eq_none.mp hcut)
    simp only [Inquiry.eval_bind', Inquiry.eval_pure] at h
    obtain ⟨t, ht, rfl⟩ := List.mem_map.mp h
    obtain ⟨hmem, hstarts⟩ := mem_startingWith.mp (List.mem_filter.mp ht).1
    refine .property (hspelled.props t hmem) ?_
    rw [hfragment, List.cons_prefix_cons]
    exact ⟨rfl, hstarts⟩

namespace Clause

variable {clause : Clause}

/-- Unused names are argument names or literals. -/
theorem name_of_unused (hargs : ∀ spec ∈ clause.args, name spec.name)
    (hshorthands : ∀ s ∈ clause.shorthands, name s.literal) {t : Text}
    (h : t ∈ clause.unusedNames) : name t := by
  rcases List.mem_append.mp h with h | h
  · obtain ⟨spec, hspec, rfl⟩ := List.mem_map.mp (List.mem_filter.mp h).1
    exact hargs spec hspec
  · obtain ⟨s, hs, rfl⟩ := List.mem_map.mp h
    exact hshorthands s (List.mem_filter.mp hs).1

theorem name_of_arg? {t : Text} {spec : ArgumentSpec} (h : clause.arg? t = some spec)
    (hargs : ∀ spec ∈ clause.args, name spec.name) : name t ∧ spec.name = t := by
  have heq : spec.name = t := by simpa using List.find?_some h
  exact ⟨heq ▸ hargs spec (List.mem_of_find?_eq_some h), heq⟩

theorem offer_toggles {t : Text} (hlast : (Line.segments word).tail.getLast? = some (fragment word))
    (hname : name t) (hstarts : fragment word <+: t) (h : c ∈ toggles t) :
    Offer name answer word quoteSynthesized c := by
  simp only [toggles, List.mem_cons, List.not_mem_nil, or_false] at h
  rcases h with rfl | rfl
  · exact .switch hlast hname hstarts (.inl rfl)
  · exact .switch hlast hname hstarts (.inr rfl)

/-- The candidates for a name are unused names, and what is typed with something behind it. -/
theorem offer_nameCandidates (hargs : ∀ spec ∈ clause.args, name spec.name)
    (hshorthands : ∀ s ∈ clause.shorthands, name s.literal)
    (hlast : (Line.segments word).tail.getLast? = some (fragment word))
    (h : c ∈ clause.nameCandidates (fragment word)) :
    Offer name answer word quoteSynthesized c := by
  have hlonger : ∀ t ∈ startingWith (fragment word) clause.unusedNames,
      name t ∧ fragment word <+: t := by
    intro t ht
    obtain ⟨hmem, hstarts⟩ := mem_startingWith.mp ht
    exact ⟨name_of_unused hargs hshorthands hmem, hstarts⟩
  have hlong : c ∈ startingWith (fragment word) clause.unusedNames →
      Offer name answer word quoteSynthesized c :=
    fun hc => .named (hlonger c hc).1 (hlonger c hc).2
  simp only [nameCandidates] at h
  split at h
  · rcases List.mem_append.mp h with h | h
    · simp only [List.mem_cons, List.not_mem_nil, or_false] at h
      rcases h with rfl | rfl
      · exact .ended (.inr rfl)
      · exact .ended (.inl rfl)
    · exact hlong h
  · split at h
    · rename_i spec hspec
      have hname := (name_of_arg? hspec hargs).1
      rcases List.mem_append.mp h with h | h
      · split at h
        · rcases List.mem_append.mp h with h | h
          · exact offer_toggles hlast hname (List.prefix_refl _) h
          · rw [List.mem_singleton.mp h]
            exact .assigned hlast hname
        · rw [List.mem_singleton.mp h]
          exact .assigned hlast hname
      · exact hlong h
    · split at h
      · rename_i only honly
        split at h
        · obtain ⟨hname, hstarts⟩ := hlonger only (by simp [honly])
          exact offer_toggles hlast hname hstarts h
        · exact hlong h
      · exact hlong h

/-- The candidates of the last option of a clause. No literal holds a `=`, so an option with a value
is none. -/
theorem offer_lastOption (hwords : Vocabulary name literal answer) {filter : Text}
    {options : List Text} (hword : Line.segments word = filter :: options)
    (h : c ∈ ((told answer filter options).lastOption quoteSynthesized).eval answer) :
    Offer name answer word quoteSynthesized c := by
  have hargs := hwords.spelled.args filter
  have hliteral : ∀ s ∈ answer (.shorthands filter), name s.literal ∧ '=' ∉ s.literal :=
    fun s hs => hwords.literal _ (hwords.spelled.shorthands filter s hs)
  have hshorthands : ∀ s ∈ answer (.shorthands filter), name s.literal :=
    fun s hs => (hliteral s hs).1
  have htail : (Line.segments word).tail.getLast? = options.getLast? := by rw [hword]; rfl
  unfold lastOption at h
  split at h
  · exact absurd h List.not_mem_nil
  · rename_i hnil
    have hfragment : fragment word = [] := fragment_of_name (htail.trans hnil) List.not_mem_nil
    refine .named (name_of_unused hargs hshorthands h) ?_
    rw [hfragment]
    exact List.nil_prefix
  · rename_i text hproperty
    exact offer_property hwords.spelled (htail.trans hproperty) _ h
  · rename_i last _ _ hlast
    have hlast := htail.trans hlast
    have hnames : '=' ∉ last → c ∈ (told answer filter options).nameCandidates last →
        Offer name answer word quoteSynthesized c := by
      intro hno hc
      have hfragment := fragment_of_name hlast hno
      rw [← hfragment] at hlast hc
      exact offer_nameCandidates hargs hshorthands hlast hc
    split at h
    · rename_i hshorthand
      obtain ⟨s, hs, heq⟩ := List.any_eq_true.mp hshorthand
      refine hnames ?_ h
      rw [← eq_of_beq heq]
      exact (hliteral s hs).2
    · split at h
      · rename_i t value hcut
        have hfragment := fragment_of_value hlast hcut
        obtain ⟨heq, hno⟩ := Text.cutFirst?_eq_some hcut
        split at h
        · rename_i spec hspec
          have hspecname := (name_of_arg? hspec hargs).2
          rw [← hfragment] at h heq
          refine offer_value hwords ?_ h
          rw [hspecname]
          exact fun hkind hquotes => ⟨filter, t, spec, by rw [hword]; rfl, by rw [hlast, heq], hno,
            hspec, hkind, hquotes⟩
        · exact absurd h List.not_mem_nil
      · rename_i hcut
        exact hnames (Text.cutFirst?_eq_none.mp hcut) h

end Clause

/-- Every candidate of a clause is made in one of these ways. -/
theorem offer_clause (hwords : Vocabulary name literal answer)
    (h : c ∈ (clauseCandidates word quoteSynthesized).eval answer) :
    Offer name answer word quoteSynthesized c := by
  unfold clauseCandidates at h
  split at h
  · exact absurd h List.not_mem_nil
  · rename_i filter options hword
    rw [Inquiry.eval_bind', Inquiry.eval_question] at h
    split at h
    · exact absurd h List.not_mem_nil
    · rw [Inquiry.eval_bind', Inquiry.eval_question] at h
      split at h
      · rename_i hoptions
        rw [List.isEmpty_iff.mp hoptions] at hword
        have hfragment := fragment_of_single hword
        rw [Inquiry.eval_pure, ← hfragment] at h
        rcases List.mem_cons.mp h with rfl | h
        · exact .ended (.inr rfl)
        · split at h
          · exact absurd h List.not_mem_nil
          · rw [List.mem_singleton.mp h]
            exact .ended (.inl rfl)
      · exact Clause.offer_lastOption hwords hword h

end Offers

end FilterLine
