import Mathlib.Data.List.Nodup
import FilterLine.Proofs.Completion.ClauseAnswers
import FilterLine.Proofs.Completion.Transparency

/-!
Options that are used. An argument is used by its name or by a literal that stands for it, with a value
or without, and then neither its name nor any of its literals is offered again in the clause; a property
is used by its name. Only what is being typed itself is taken up, if it is a name already.
-/
namespace FilterLine

open Line

section Schema

variable {name literal : Text → Prop} {r : Reply} {f a v : Text}

namespace Reply

def Lists (r : Reply) (filter argument literal : Text) : Prop :=
  (∃ spec ∈ r (.filterArgs filter), spec.kind = .enum ∧ spec.name = argument) ∧
    literal ∈ (r.detail filter argument).values

/-- A literal stands for the only argument that lists it, unless it is itself the name of one. -/
theorem mem_shorthands : ⟨v, a⟩ ∈ r.shorthands f ↔
    v ∉ (r (.filterArgs f)).map (·.name) ∧ ∀ b, r.Lists f b v ↔ b = a := by
  rw [shorthands, EnumShorthand.mem_derive]
  have hlists : ∀ b, (∃ l ∈ (SchemaData.enums (r (.filterArgs f))).map fun spec =>
      (spec.name, (r.detail f spec.name).values), l.1 = b ∧ v ∈ l.2) ↔ r.Lists f b v := by
    intro b
    simp only [Lists, SchemaData.enums, List.mem_map, List.mem_filter, decide_eq_true_eq]
    constructor
    · rintro ⟨_, ⟨spec, ⟨hspec, hkind⟩, rfl⟩, rfl, hv⟩
      exact ⟨⟨spec, hspec, hkind, rfl⟩, hv⟩
    · rintro ⟨⟨spec, hspec, hkind, rfl⟩, hv⟩
      exact ⟨_, ⟨spec, ⟨hspec, hkind⟩, rfl⟩, rfl, hv⟩
  simp only [hlists]

/-- Each literal is listed once. -/
theorem nodup_shorthands (r : Reply) (f : Text) : ((r.shorthands f).map (·.literal)).Nodup :=
  EnumShorthand.nodup_derive _ _

/-- The answers of a completion are spelled as the schema is. -/
theorem spelled_answer (h : ∀ q : Query, q.Spelled name literal (r q)) (offers : Text → List Text) :
    Spelled name literal (r.answer offers) := by
  have hdetail : ∀ f a, ∀ v ∈ (r.detail f a).values, literal v := by
    intro f a v hv
    unfold detail at hv
    split at hv
    · split at hv
      · exact h (.argument f a) v hv
      · exact absurd hv List.not_mem_nil
    · exact h (.argument f a) v hv
  refine ⟨h .filters, h .props, fun f => h (.filterArgs f), hdetail, fun f s hs => ?_⟩
  obtain ⟨v, a⟩ := s
  exact hdetail f a v (((mem_shorthands.mp hs).2 a).mpr rfl).2

end Reply
end Schema

/-- In a list whose keys are distinct, the item that is found under a key is the one that has it. -/
theorem find?_key_iff {α : Type} {key : α → Text} {l : List α} (hnodup : (l.map key).Nodup)
    {k : Text} {x : α} : l.find? (key · == k) = some x ↔ x ∈ l ∧ key x = k := by
  constructor
  · intro h
    exact ⟨List.mem_of_find?_eq_some h, by simpa using List.find?_some h⟩
  · rintro ⟨hx, rfl⟩
    cases hfind : l.find? (key · == key x) with
    | none =>
      have hne := List.find?_eq_none.mp hfind x hx
      simp at hne
    | some y =>
      have hkey : key y = key x := by simpa using List.find?_some hfind
      rw [List.inj_on_of_nodup_map hnodup (List.mem_of_find?_eq_some hfind) hx hkey]

namespace Clause

variable {c : Clause} {option name last t : Text}

/-- An option uses its own name and, if that is a literal, the argument it stands for. -/
theorem mem_optionUses {shorthands : List EnumShorthand}
    (hnodup : (shorthands.map (·.literal)).Nodup) :
    t ∈ optionUses shorthands option ↔
      t = optionName option ∨ ⟨optionName option, t⟩ ∈ shorthands := by
  rw [optionUses]
  cases hfind : shorthands.find? (·.literal == optionName option) with
  | none =>
    have hnone : ⟨optionName option, t⟩ ∉ shorthands := by
      intro hmem
      have hne := List.find?_eq_none.mp hfind _ hmem
      simp at hne
    simp [hnone]
  | some s =>
    obtain ⟨hs, hliteral⟩ := (find?_key_iff hnodup).mp hfind
    have hargument : ⟨optionName option, t⟩ ∈ shorthands ↔ t = s.argument := by
      constructor
      · intro hmem
        have hsame := (find?_key_iff hnodup).mpr ⟨hmem, rfl⟩
        exact congrArg EnumShorthand.argument (Option.some.inj (hsame.symm.trans hfind))
      · rintro rfl
        rw [← hliteral]
        exact hs
    rw [hargument]
    simp [or_comm]

/-- A clause uses the names of its options, and what these stand for. -/
theorem mem_used (hnodup : (c.shorthands.map (·.literal)).Nodup) : t ∈ c.used ↔
    ∃ option ∈ c.options, isProperty option = false ∧
      (t = optionName option ∨ ⟨optionName option, t⟩ ∈ c.shorthands) := by
  simp only [used, List.mem_flatMap, List.mem_filter, Bool.not_eq_true', mem_optionUses hnodup,
    and_assoc]

/-- What is unused is a declared name, or a literal whose argument is unused too. -/
theorem mem_unusedNames : t ∈ c.unusedNames ↔ t ∉ c.used ∧
    (t ∈ c.args.map (·.name) ∨ ∃ a, ⟨t, a⟩ ∈ c.shorthands ∧ a ∉ c.used) := by
  simp only [unusedNames, List.mem_append, List.mem_filter, List.mem_map, decide_eq_true_eq]
  constructor
  · rintro (⟨hname, hunused⟩ | ⟨s, ⟨hs, hliteral, hargument⟩, rfl⟩)
    · exact ⟨hunused, .inl hname⟩
    · exact ⟨hliteral, .inr ⟨s.argument, hs, hargument⟩⟩
  · rintro ⟨hunused, hname | ⟨a, hs, hargument⟩⟩
    · exact .inl ⟨hname, hunused⟩
    · exact .inr ⟨_, ⟨hs, hunused, hargument⟩, rfl⟩

/-- The ways in which a name is offered: one that is not used, one that is not used and can be ended
at once, or what is typed with a separator behind it. -/
inductive NameOffer (c : Clause) (last : Text) : Text → Prop where
  | unused {t : Text} : t ∈ c.unusedNames → NameOffer c last t
  | switch {t : Text} {x : Char} : t ∈ c.unusedNames → x ∈ [':', ' '] →
      NameOffer c last (t ++ [x])
  | typed {x : Char} : x ∈ [':', ' ', '='] → NameOffer c last (last ++ [x])

theorem nameOffer_of_mem_toggles {x : Text} (hname : x ∈ c.unusedNames) (h : t ∈ toggles x) :
    NameOffer c last t := by
  simp only [toggles, List.mem_cons, List.not_mem_nil, or_false] at h
  rcases h with rfl | rfl
  · exact .switch hname (by decide)
  · exact .switch hname (by decide)

/-- Every candidate for a name is offered in one of these ways. -/
theorem nameOffer_of_mem (h : t ∈ c.nameCandidates last) : NameOffer c last t := by
  have hlonger : ∀ x ∈ startingWith last c.unusedNames, x ∈ c.unusedNames :=
    fun x hx => (mem_startingWith.mp hx).1
  simp only [nameCandidates] at h
  split at h
  · rcases List.mem_append.mp h with h | h
    · simp only [List.mem_cons, List.not_mem_nil, or_false] at h
      rcases h with rfl | rfl
      · exact .typed (by decide)
      · exact .typed (by decide)
    · exact .unused (hlonger t h)
  · split at h
    · rcases List.mem_append.mp h with h | h
      · have hform : t ∈ toggles last ++ [last ++ ['=']] := by
          split at h
          · exact h
          · exact List.mem_append_right _ h
        simp only [toggles, List.mem_append, List.mem_cons, List.not_mem_nil, or_false] at hform
        rcases hform with (rfl | rfl) | rfl
        · exact .typed (by decide)
        · exact .typed (by decide)
        · exact .typed (by decide)
      · exact .unused (hlonger t h)
    · split at h
      · rename_i only honly
        split at h
        · exact nameOffer_of_mem_toggles (hlonger only (by simp [honly])) h
        · exact .unused (hlonger t h)
      · exact .unused (hlonger t h)

/-- Only unused names are offered as they are or ended, and what is typed. A name does not end in a
separator, so the separator tells what stands in front of it. -/
theorem NameOffer.unused_or_eq (h : NameOffer c last t) (hwords : ∀ u ∈ c.unusedNames, u.AllWord)
    (hname : name.AllWord) (hform : t = name ∨ ∃ x ∈ [':', ' ', '='], t = name ++ [x]) :
    name ∈ c.unusedNames ∨ name = last := by
  have hmarks : ∀ x ∈ [':', ' ', '='], Text.isWord x = false := by
    simp only [List.forall_mem_cons, List.not_mem_nil, false_imp_iff, implies_true, and_true]
    exact ⟨by decide +kernel, by decide +kernel, by decide +kernel⟩
  have hended : ∀ {u : Text} {x : Char}, x ∈ [':', ' ', '='] → t = u ++ [x] → name = u := by
    rintro u x hx hu
    rcases hform with rfl | ⟨y, -, hform⟩
    · exact absurd (by simp [hu]) (hname.not_mem (hmarks x hx))
    · exact (concat_inj (hform.symm.trans hu)).1
  cases h with
  | unused hunused =>
    rcases hform with rfl | ⟨x, hx, rfl⟩
    · exact .inl hunused
    · exact absurd (by simp) ((hwords _ hunused).not_mem (hmarks x hx))
  | switch hunused hx =>
    exact .inl (hended (List.mem_append_left ['='] hx) rfl ▸ hunused)
  | typed hx => exact .inr (hended hx rfl)

end Clause

namespace Reply

variable {r : Reply} {offers : Text → List Text} {filter option argument last t : Text}
  {options earlier : List Text}

/-- Whether an option uses an argument: by its name or by a literal that stands for it, alone or with a
value. -/
def Uses (r : Reply) (filter option argument : Text) : Prop :=
  ∃ name, (option = name ∨ ∃ value, option = name ++ '=' :: value) ∧
    (name = argument ∨ ⟨name, argument⟩ ∈ r.shorthands filter)

/-- Whether a text is an argument's name, or one of its literals and the name of none. -/
def Spells (r : Reply) (filter argument t : Text) : Prop :=
  t = argument ∨ t ∉ (r (.filterArgs filter)).map (·.name) ∧ r.Lists filter argument t

section Words

variable (hwords : Spelled Text.AllWord Text.AllWord (r.answer offers))

include hwords

/-- What an option uses is used by the clause. -/
theorem mem_used_of_uses (hoption : option ∈ options) (huses : r.Uses filter option argument)
    (hargument : argument.AllWord) :
    argument ∈ (Clause.told (r.answer offers) filter options).used := by
  obtain ⟨name, hform, hname⟩ := huses
  have hnameword : name.AllWord := by
    rcases hname with rfl | hs
    · exact hargument
    · exact hwords.shorthands filter _ hs
  have hoptionname : Clause.optionName option = name :=
    Clause.optionName_eq (hnameword.not_mem_of_mark (by decide)) hform
  have hproperty : Clause.isProperty option = false := by
    have hhash : '#' ∉ name := hnameword.not_mem_of_mark (by decide)
    cases name with
    | nil => rcases hform with rfl | ⟨value, rfl⟩ <;> rfl
    | cons d name =>
      have hd : d ≠ '#' := (List.ne_of_not_mem_cons hhash).symm
      rcases hform with rfl | ⟨value, rfl⟩ <;> simpa [Clause.isProperty] using hd
  refine (Clause.mem_used (r.nodup_shorthands filter)).mpr ⟨option, hoption, hproperty, ?_⟩
  rw [hoptionname]
  exact hname.imp_left Eq.symm

omit hwords in
/-- Neither the name nor a literal of a used argument is unused. -/
theorem not_mem_unusedNames (ht : r.Spells filter argument t)
    (hused : argument ∈ (Clause.told (r.answer offers) filter options).used) :
    t ∉ (Clause.told (r.answer offers) filter options).unusedNames := by
  rw [Clause.mem_unusedNames]
  rintro ⟨hunused, horigin⟩
  rcases ht with rfl | ⟨hnames, hlists⟩
  · exact hunused hused
  · rcases horigin with hname | ⟨b, hs, hb⟩
    · exact hnames hname
    · obtain rfl : argument = b := ((mem_shorthands.mp hs).2 argument).mp hlists
      exact hb hused

/-- What spells an argument is made of word characters. -/
theorem allWord_of_spells (ht : r.Spells filter argument t) (hargument : argument.AllWord) :
    t.AllWord := by
  rcases ht with rfl | ⟨-, -, hlists⟩
  · exact hargument
  · exact hwords.values filter argument t hlists

end Words
end Reply

/-- A property that an option before has assigned is not offered. -/
theorem not_mem_propertyCandidates {answer : (q : Question) → q.Answer} {text p option : Text}
    {earlier : List Text} (htext : '=' ∉ text) (hprops : ∀ p ∈ answer .props, '=' ∉ p)
    (hoption : option ∈ earlier)
    (hassigns : option = '#' :: p ∨ ∃ value, option = '#' :: (p ++ '=' :: value)) :
    '#' :: p ∉ (propertyCandidates text earlier).eval answer := by
  rw [propertyCandidates, Text.cutFirst?_eq_none.mpr htext]
  simp only [Inquiry.eval_bind', Inquiry.eval_pure]
  intro hmem
  obtain ⟨p', hp', heq⟩ := List.mem_map.mp hmem
  obtain rfl : p' = p := (List.cons.inj heq).2
  obtain ⟨hoffered, hfresh⟩ := List.mem_filter.mp hp'
  have hname : '=' ∉ p' := hprops p' (mem_startingWith.mp hoffered).1
  have hreferenced : p' ∈ (earlier.filterMap (Text.after? ['#'])).map Clause.optionName := by
    obtain ⟨rest, hrest, hform⟩ : ∃ rest, Text.after? ['#'] option = some rest ∧
        (rest = p' ∨ ∃ value, rest = p' ++ '=' :: value) := by
      rcases hassigns with rfl | ⟨value, rfl⟩
      · exact ⟨p', rfl, .inl rfl⟩
      · exact ⟨_, rfl, .inr ⟨value, rfl⟩⟩
    exact List.mem_map.mpr ⟨rest, List.mem_filterMap.mpr ⟨option, hoption, hrest⟩,
      Clause.optionName_eq hname hform⟩
  exact of_decide_eq_true hfresh hreferenced

namespace Engine

open PathSource

variable {r : Reply} {fails : List Query → Query → Option ToolError}
  {reply : Text → Except (Text × FileError) (List Text)} {s s' : Session} {line word filter : Text}
  {cursor : Nat} {found options : List Text} {q : Bool}

/-- What a request in a clause with options finds is what the last option offers. -/
theorem found_of_clause (hwords : Spelled Text.AllWord Text.AllWord (r.answer (offers reply)))
    (hs : s.data.Sound r)
    (h : (complete (.failing r fails) (.fixed reply) line cursor).result s = (.ok found, s'))
    (hcontext : Context.ofCursor line cursor = .filterClause word q)
    (hword : segments word = filter :: options) (hne : options ≠ []) :
    found = if filter ∈ r .filters then
      ((Clause.told (r.answer (offers reply)) filter options).lastOption q).eval
        (r.answer (offers reply)) else [] := by
  have hlisted : ∀ f ∈ r .filters, '.' ∉ f := fun f hf =>
    (hwords.filters f hf).not_mem_of_mark (by decide)
  rw [complete_eq hlisted hs h, eval_candidates hcontext hword hne fun f hf =>
    (hwords.filters f hf).not_mem_of_mark (by decide)]
  rfl

/-- When all names are made of word characters, an argument that an option before uses is not offered
again, neither by its name nor by a literal, ended or not, unless that is just what is typed; and a
property that an option before assigns is not offered again. -/
theorem used_not_offered (hspelled : ∀ q : Query, q.Spelled Text.AllWord Text.AllWord (r q))
    (hs : s.data.Sound r)
    (h : (complete (.failing r fails) (.fixed reply) line cursor).result s = (.ok found, s'))
    (hcontext : Context.ofCursor line cursor = .filterClause word q) {earlier : List Text}
    {last : Text} (hword : segments word = filter :: (earlier ++ [last])) (hlast : '=' ∉ last) :
    (last.head? ≠ some '#' → ∀ spec ∈ r (.filterArgs filter), ∀ option ∈ earlier,
      r.Uses filter option spec.name → ∀ t, r.Spells filter spec.name t → ∀ c ∈ found,
        (c = t ∨ ∃ x ∈ [':', ' ', '='], c = t ++ [x]) → t = last) ∧
    (last.head? = some '#' → ∀ option ∈ earlier, ∀ p,
      (option = '#' :: p ∨ ∃ value, option = '#' :: (p ++ '=' :: value)) → '#' :: p ∉ found) := by
  have hwords := Reply.spelled_answer hspelled (offers reply)
  have hgetLast : (earlier ++ [last]).getLast? = some last := List.getLast?_concat
  have hfound := found_of_clause hwords hs h hcontext hword (by simp)
  have hmem : ∀ c ∈ found, c ∈ ((Clause.told (r.answer (offers reply)) filter
      (earlier ++ [last])).lastOption q).eval (r.answer (offers reply)) := by
    intro c hc
    rw [hfound] at hc
    split at hc
    · exact hc
    · exact absurd hc List.not_mem_nil
  constructor
  · intro hproperty spec hspec option hoption huses t ht c hc hform
    have hargument := hwords.args filter spec hspec
    have hused := Reply.mem_used_of_uses hwords (List.mem_append_left [last] hoption) huses hargument
    have hoffer : Clause.NameOffer (Clause.told (r.answer (offers reply)) filter
        (earlier ++ [last])) last c := by
      have hc := hmem c hc
      rw [Clause.lastOption_of_name hgetLast hproperty hlast, Inquiry.eval_pure] at hc
      split at hc
      · exact .unused hc
      · exact Clause.nameOffer_of_mem hc
    have hnames : ∀ u ∈ (Clause.told (r.answer (offers reply)) filter
        (earlier ++ [last])).unusedNames, u.AllWord :=
      fun u hu => Clause.name_of_unused (hwords.args filter) (hwords.shorthands filter) hu
    rcases hoffer.unused_or_eq hnames (Reply.allWord_of_spells hwords ht hargument) hform with
      hunused | heq
    · exact absurd hunused (Reply.not_mem_unusedNames ht hused)
    · exact heq
  · intro hproperty option hoption p hassigns hp
    obtain ⟨text, rfl⟩ : ∃ text, last = '#' :: text := by
      cases last with
      | nil => cases hproperty
      | cons d text => exact ⟨text, by rw [Option.some.inj hproperty]⟩
    have hp := hmem _ hp
    rw [Clause.lastOption_of_property hgetLast, List.dropLast_concat] at hp
    refine not_mem_propertyCandidates (List.not_mem_of_not_mem_cons hlast) ?_ hoption hassigns hp
    exact fun p hp => (hwords.props p hp).not_mem (by decide +kernel)

/-- A tool with one filter that has two enumerations, a switch and a string, and with two
properties. -/
def manyOptions : Reply
  | .version => none
  | .filters => ["f"]
  | .modules => []
  | .props => ["Width", "Height"]
  | .protocols => []
  | .filterArgs _ => [⟨"mode", .enum⟩, ⟨"deep", .bool⟩, ⟨"fmt", .str⟩, ⟨"log", .enum⟩]
  | .argument _ argument =>
    if argument = ("mode" : Text) then ⟨some .enum, ["fast", "slow"]⟩
    else if argument = ("log" : Text) then ⟨some .enum, ["info", "none"]⟩
    else ⟨none, []⟩

/-- A clause that uses an enumeration by a literal with a value, a string with a quoted colon, and a
property. -/
def usedLine (last : Text) : Text := "f:fast=x:fmt=\"a:=b\":#Width=2:" ++ last

def usedServed (last : Text) : Except ToolError (List Text) × Session :=
  (complete (.failing manyOptions fun _ _ => none) (.fixed fun _ => .ok []) (usedLine last)
    (usedLine last).length).result {}

def unusedFound : List Text := ["deep", "log", "info", "none"]

theorem spelled_manyOptions (q : Query) : q.Spelled Text.AllWord Text.AllWord (manyOptions q) := by
  cases q with
  | argument f a =>
    simp only [Query.Spelled, manyOptions]
    split
    · decide +kernel
    · split <;> decide +kernel
  | filterArgs f =>
    have hargs : ∀ spec ∈ manyOptions (.filterArgs []), spec.name.AllWord := by decide +kernel
    exact hargs
  | _ => simp only [Query.Spelled, manyOptions] <;> decide +kernel

theorem used_not_offered_quoted :
    ((usedServed []).1 = .ok unusedFound ∧ ("mode" : Text) ∉ unusedFound ∧
      ("slow:" : Text) ∉ unusedFound) ∧
    (usedServed ['#']).1 = .ok [("#Height" : Text)] ∧ ("#Width" : Text) ∉ [("#Height" : Text)] := by
  have hserved : ∀ last found, (usedServed last).1 = .ok found →
      usedServed last = (.ok found, (usedServed last).2) := by
    rintro last found h
    rw [← h]
  have hnames : (usedServed []).1 = .ok unusedFound := by decide +kernel
  have hprops : (usedServed ['#']).1 = .ok ["#Height"] := by decide +kernel
  have hsegments : segments (usedLine []) =
      ("f" : Text) :: ([("fast=x" : Text), ("fmt=\"a:=b\"" : Text), ("#Width=2" : Text)] ++ [[]]) := by decide
  have hsegments' : segments (usedLine ['#']) =
      ("f" : Text) :: ([("fast=x" : Text), ("fmt=\"a:=b\"" : Text), ("#Width=2" : Text)] ++ [['#']]) := by
    decide
  have hcontext : Context.ofCursor (usedLine []) (usedLine []).length =
      .filterClause (usedLine []) false := by decide
  have hcontext' : Context.ofCursor (usedLine ['#']) (usedLine ['#']).length =
      .filterClause (usedLine ['#']) false := by decide
  have hfresh := (used_not_offered spelled_manyOptions (SchemaData.sound_empty _)
    (hserved _ _ hnames) hcontext hsegments (by decide)).1 (by decide) ⟨"mode", .enum⟩ (by decide)
    "fast=x" (by decide) ⟨"fast", .inr ⟨"x", rfl⟩, .inr (by decide +kernel)⟩
  have hassigned := (used_not_offered spelled_manyOptions (SchemaData.sound_empty _)
    (hserved _ _ hprops) hcontext' hsegments' (by decide)).2 rfl "#Width=2" (by decide) "Width"
    (.inr ⟨"2", rfl⟩)
  refine ⟨⟨hnames, fun hmem => ?_, fun hmem => ?_⟩, hprops, hassigned⟩
  · exact absurd (hfresh "mode" (.inl rfl) _ hmem (.inl rfl)) (by decide)
  · have hslow : manyOptions.Spells "f" "mode" "slow" :=
      .inr ⟨by decide, ⟨⟨_, List.mem_cons_self, rfl, rfl⟩, by decide⟩⟩
    exact absurd (hfresh "slow" hslow _ hmem (.inr ⟨':', by decide, rfl⟩)) (by decide)

end Engine
end FilterLine
