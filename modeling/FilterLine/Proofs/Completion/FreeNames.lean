import FilterLine.Proofs.Completion.Unused

/-!
What stands for the arguments of a filter: each argument's name, and each literal that stands for one.
An option takes the argument that it begins with; a clause offers what stands for the arguments that
none of its options takes.
-/
namespace FilterLine

/-- An option is the name that it begins with, with a value or without. -/
theorem Clause.eq_optionName (option : Text) : '=' ∉ optionName option ∧
    (option = optionName option ∨ ∃ value, option = optionName option ++ '=' :: value) := by
  induction option with
  | nil => exact ⟨List.not_mem_nil, .inl rfl⟩
  | cons d option ih =>
    by_cases hd : d = '='
    · have hnil : optionName (d :: option) = [] := by simp [optionName, Text.beforeFirst, hd]
      rw [hnil, hd]
      exact ⟨List.not_mem_nil, .inr ⟨option, rfl⟩⟩
    · have hcons : optionName (d :: option) = d :: optionName option := by
        simp [optionName, Text.beforeFirst, hd]
      rw [hcons]
      refine ⟨List.not_mem_cons_of_ne_of_not_mem (Ne.symm hd) ih.1, ?_⟩
      apply ih.2.imp (congrArg (d :: ·))
      rintro ⟨value, hvalue⟩
      exact ⟨value, congrArg (d :: ·) hvalue⟩

namespace Reply

variable {r : Reply} {offers : Text → List Text} {filter option a b t p : Text}
  {earlier options : List Text}

/-- What stands for an argument of a filter, with the argument: each argument's own name, and then each
literal. -/
def spellings (r : Reply) (filter : Text) : List (Text × Text) :=
  (r (.filterArgs filter)).map (fun spec => (spec.name, spec.name)) ++
    (r.shorthands filter).map fun s => (s.literal, s.argument)

/-- Whether an option takes an argument: in front of its value stands the name of the argument, or a
literal that stands for it. An option that assigns a property takes none. -/
def Takes (r : Reply) (filter option argument : Text) : Prop :=
  option.head? ≠ some '#' ∧ ∃ name, '=' ∉ name ∧
    (option = name ∨ ∃ value, option = name ++ '=' :: value) ∧
      (name = argument ∨ ⟨name, argument⟩ ∈ r.shorthands filter)

/-- An option takes what its name is or stands for. -/
theorem takes_iff : r.Takes filter option a ↔ Clause.isProperty option = false ∧
    (a = Clause.optionName option ∨ ⟨Clause.optionName option, a⟩ ∈ r.shorthands filter) := by
  have hproperty : Clause.isProperty option = false ↔ option.head? ≠ some '#' := by
    simp [Clause.isProperty]
  rw [hproperty]
  apply and_congr_right
  intro _
  constructor
  · rintro ⟨name, hassign, hform, hname⟩
    rw [Clause.optionName_eq hassign hform]
    exact hname.imp_left Eq.symm
  · intro h
    obtain ⟨hassign, hform⟩ := Clause.eq_optionName option
    exact ⟨_, hassign, hform, h.imp_left Eq.symm⟩

instance : Decidable (r.Takes filter option a) := decidable_of_iff' _ takes_iff

/-- The names and literals for arguments that no option takes. -/
def free (r : Reply) (filter : Text) (options : List Text) : List Text :=
  ((r.spellings filter).filter fun e => ∀ option ∈ options, ¬ r.Takes filter option e.2).map Prod.fst

/-- A text stands for an argument as its name, or as a literal. -/
theorem mem_spellings : (t, a) ∈ r.spellings filter ↔
    (t = a ∧ a ∈ (r (.filterArgs filter)).map (·.name)) ∨ ⟨t, a⟩ ∈ r.shorthands filter := by
  simp only [spellings, List.mem_append, List.mem_map, Prod.mk.injEq]
  apply or_congr
  · constructor
    · rintro ⟨spec, hspec, rfl, rfl⟩
      exact ⟨rfl, spec, hspec, rfl⟩
    · rintro ⟨rfl, spec, hspec, rfl⟩
      exact ⟨spec, hspec, rfl, rfl⟩
  · constructor
    · rintro ⟨s, hs, rfl, rfl⟩
      exact hs
    · exact fun h => ⟨_, h, rfl, rfl⟩

theorem mem_names_of_shorthand (h : ⟨t, a⟩ ∈ r.shorthands filter) :
    a ∈ (r (.filterArgs filter)).map (·.name) := by
  obtain ⟨⟨spec, hspec, -, rfl⟩, -⟩ := ((mem_shorthands.mp h).2 a).mpr rfl
  exact List.mem_map_of_mem hspec

/-- What is not among the names and literals of a filter stands for none of its arguments. -/
theorem not_mem_spellings (h : t ∉ (r.spellings filter).map Prod.fst) (a : Text) :
    (t, a) ∉ r.spellings filter :=
  fun hmem => h (List.mem_map_of_mem hmem)

/-- What a text stands for is an argument of the filter. -/
theorem mem_names_of_spellings (h : (t, a) ∈ r.spellings filter) :
    a ∈ (r (.filterArgs filter)).map (·.name) := by
  cases mem_spellings.mp h with
  | inl h => exact h.2
  | inr h => exact mem_names_of_shorthand h

/-- No text stands for two arguments: a literal is the name of none, and listed by one. -/
theorem spellings_unique (h : (t, a) ∈ r.spellings filter) (h' : (t, b) ∈ r.spellings filter) :
    a = b := by
  obtain ⟨rfl, ha⟩ | h := mem_spellings.mp h <;> obtain ⟨rfl, hb⟩ | h' := mem_spellings.mp h'
  · rfl
  · exact absurd ha (mem_shorthands.mp h').1
  · exact absurd hb (mem_shorthands.mp h).1
  · exact ((mem_shorthands.mp h').2 a).mp (((mem_shorthands.mp h).2 a).mpr rfl)

theorem allWord_of_spellings (hwords : Spelled Text.AllWord Text.AllWord (r.answer offers))
    (h : (t, a) ∈ r.spellings filter) : t.AllWord := by
  obtain ⟨rfl, hname⟩ | hliteral := mem_spellings.mp h
  · obtain ⟨spec, hspec, rfl⟩ := List.mem_map.mp hname
    exact hwords.args filter spec hspec
  · exact hwords.shorthands filter _ hliteral

/-- What is offered stands for an argument that no option takes. -/
theorem mem_free : t ∈ r.free filter options ↔
    ∃ a, (t, a) ∈ r.spellings filter ∧ ∀ option ∈ options, ¬ r.Takes filter option a := by
  simp [free]

theorem mem_free_iff (h : (t, a) ∈ r.spellings filter) :
    t ∈ r.free filter options ↔ ∀ option ∈ options, ¬ r.Takes filter option a := by
  rw [mem_free]
  constructor
  · rintro ⟨b, hb, hfree⟩
    rw [spellings_unique h hb]
    exact hfree
  · exact fun hfree => ⟨a, h, hfree⟩

/-- When the names of the arguments are distinct, nothing is offered twice. -/
theorem nodup_free (hdistinct : ((r (.filterArgs filter)).map (·.name)).Nodup) :
    (r.free filter options).Nodup := by
  have hspelled : ((r.spellings filter).map Prod.fst).Nodup := by
    have hfst : (r.spellings filter).map Prod.fst =
        (r (.filterArgs filter)).map (·.name) ++ (r.shorthands filter).map (·.literal) := by
      simp [spellings, Function.comp_def]
    rw [hfst]
    apply List.Nodup.append hdistinct (r.nodup_shorthands filter)
    intro t hname hliteral
    obtain ⟨s, hs, rfl⟩ := List.mem_map.mp hliteral
    exact (mem_shorthands.mp hs).1 hname
  exact hspelled.sublist (List.filter_sublist.map _)

variable (offers) in
/-- What a clause uses is what one of its options takes. -/
theorem mem_used_iff : a ∈ (Clause.told (r.answer offers) filter options).used ↔
    ∃ option ∈ options, r.Takes filter option a := by
  simp only [takes_iff]
  exact Clause.mem_used (r.nodup_shorthands filter)

variable (offers) in
/-- The clause offers the names and literals for arguments that none of its options takes. A literal
needs no question of its own: an option that is the literal takes the argument. -/
theorem unusedNames_eq :
    (Clause.told (r.answer offers) filter options).unusedNames = r.free filter options := by
  have hused : ∀ a, a ∉ (Clause.told (r.answer offers) filter options).used ↔
      ∀ option ∈ options, ¬ r.Takes filter option a := by
    intro a
    rw [mem_used_iff offers]
    simp
  have hliteral : ∀ s ∈ r.shorthands filter,
      (∀ option ∈ options, ¬ r.Takes filter option s.argument) →
        ∀ option ∈ options, ¬ r.Takes filter option s.literal := by
    rintro s hs hfree option hoption ⟨hproperty, name, hassign, hform, rfl | hname⟩
    · exact hfree option hoption ⟨hproperty, _, hassign, hform, .inr hs⟩
    · exact (mem_shorthands.mp hs).1 (mem_names_of_shorthand hname)
  rw [free, spellings, List.filter_append, List.map_append, Clause.unusedNames]
  apply congrArg₂
  · simp only [hused, List.filter_map, List.map_map]
    rfl
  · simp only [hused, List.filter_map, List.map_map]
    have hfilter : (r.shorthands filter).filter (fun s =>
        (∀ option ∈ options, ¬ r.Takes filter option s.literal) ∧
          ∀ option ∈ options, ¬ r.Takes filter option s.argument) =
        (r.shorthands filter).filter fun s =>
          ∀ option ∈ options, ¬ r.Takes filter option s.argument := by
      apply List.filter_congr
      intro s hs
      simpa using hliteral s hs
    exact congrArg (List.map _) hfilter

section Words

variable (hp : p.AllWord)

include hp

/-- Word characters without a value take what they name or stand for. -/
theorem takes_word : r.Takes filter p a ↔ p = a ∨ ⟨p, a⟩ ∈ r.shorthands filter := by
  have hassign : '=' ∉ p := hp.not_mem_of_mark (by decide)
  constructor
  · rintro ⟨-, name, -, rfl | ⟨value, rfl⟩, hname⟩
    · exact hname
    · exact absurd (by simp) hassign
  · exact fun hname => ⟨hp.head?_ne_hash, p, hassign, .inl rfl, hname⟩

/-- Word characters take an argument just when they stand for it. -/
theorem takes_word_iff (ha : a ∈ (r (.filterArgs filter)).map (·.name)) :
    r.Takes filter p a ↔ (p, a) ∈ r.spellings filter := by
  rw [takes_word hp, mem_spellings]
  apply or_congr_left
  simp [ha]

/-- With word characters behind the others, what they stand for is not offered any more. -/
theorem mem_free_concat (h : (t, a) ∈ r.spellings filter) : t ∈ r.free filter (earlier ++ [p]) ↔
    (∀ option ∈ earlier, ¬ r.Takes filter option a) ∧ (p, a) ∉ r.spellings filter := by
  rw [mem_free_iff h, ← takes_word_iff hp (mem_names_of_spellings h), List.forall_mem_append,
    List.forall_mem_singleton]

/-- A name that is not offered takes nothing from what is offered. -/
theorem free_concat (h : p ∉ r.free filter earlier) :
    r.free filter (earlier ++ [p]) = r.free filter earlier := by
  have htaken : ∀ a, (p, a) ∈ r.spellings filter → ¬ ∀ option ∈ earlier, ¬ r.Takes filter option a :=
    fun a hp hfree => h (mem_free.mpr ⟨a, hp, hfree⟩)
  rw [free, free]
  apply congrArg (List.map _)
  apply List.filter_congr
  rintro ⟨t, a⟩ hspelled
  have htakes := takes_word_iff hp (mem_names_of_spellings hspelled)
  simp only [List.forall_mem_append, List.forall_mem_singleton, htakes, decide_eq_decide,
    and_iff_left_iff_imp]
  exact fun hfree hstands => htaken a hstands hfree

end Words

end Reply
end FilterLine
