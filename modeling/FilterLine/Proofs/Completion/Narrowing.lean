import FilterLine.Proofs.Completion.Acceptance
import FilterLine.Proofs.Completion.FreeNames

/-!
A name that is typed behind a colon. The clause has the segments it had, with the name in place of the
empty one, so the list that was offered behind the colon is narrowed to what goes on from the name. A
name that is complete also uses what it stands for, and then the other names for that are left out.
-/
namespace FilterLine

open Line

section Line

variable {line word filter p : Text} {earlier : List Text} {q : Bool}
  (hcontext : Context.ofCursor line line.length = .filterClause word q)
  (hword : segments word = filter :: (earlier ++ [[]]))

include hcontext hword

/-- A clause that ends in a colon ends outside, and no quote is synthesized for it. -/
theorem after_colon : q = false ∧ Place.after {} word = {} := by
  obtain ⟨r, rfl, -, -⟩ := ClauseLine.exists_open hcontext
  obtain ⟨pieces, front, last, hcut⟩ := exists_lastCut separator_colon r
  have hsegments := segments_close hcut q
  rw [hword, ← List.cons_append] at hsegments
  obtain ⟨-, hlast⟩ := concat_inj hsegments
  cases q with
  | true => simp [close] at hlast
  | false =>
    obtain rfl : last = [] := hlast.symm
    have hfront : close false r = front := hcut.text.trans (List.append_nil front)
    rw [hfront]
    exact ⟨rfl, hcut.outside⟩

/-- Word characters behind the colon become the last segment. -/
theorem context_of_typed (hp : p.AllWord) :
    Context.ofCursor (line ++ p) (line ++ p).length = .filterClause (word ++ p) false ∧
      segments (word ++ p) = filter :: (earlier ++ [p]) := by
  obtain ⟨rfl, hplace⟩ := after_colon hcontext hword
  by_cases hne : p = []
  · rw [hne, List.append_nil, List.append_nil]
    exact ⟨hcontext, hword⟩
  obtain ⟨words, before, pieces, front, kept, typed, a, htext⟩ :=
    ClauseLine.exists_of_context hcontext (by simp [hplace])
  have hsegments := segments_of_cut a.word
  rw [close, if_neg (by simp)] at htext
  rw [← htext, hword, ← List.cons_append] at hsegments
  obtain ⟨rfl, hlast⟩ := concat_inj hsegments
  obtain ⟨rfl, rfl⟩ := List.append_eq_nil_iff.mp hlast.symm
  have hbody : Closes (Place.after {} []) p := closes_of_name ⟨hne, hp⟩
  have hends : endsQuoted (front ++ ([] ++ p)) = false := by
    rw [endsQuoted_eq, a.after_word hbody]
  have htyped := a.context_of_clause (a.uncut_replaced hbody.blank) (by
    rw [hends]
    exact a.isClause_of_segments (List.cons_ne_nil _ _) _)
  have hline : line ++ p = before ++ (front ++ ([] ++ p)) := by
    rw [a.line.text]
    simp
  have hwordp : word ++ p = front ++ ([] ++ p) := by
    rw [htext]
    simp
  rw [hline, hwordp, htyped, hends]
  exact ⟨rfl, a.segments_word hbody⟩

end Line

namespace Reply

variable {r : Reply} {filter a t p : Text}

/-- The list that was offered, narrowed to what goes on from a name. A single switch is offered ended:
with a colon, and with a space. -/
def narrowed (r : Reply) (filter p : Text) (offered : List Text) : List Text :=
  match startingWith p offered with
  | [only] =>
    if ∃ spec ∈ r (.filterArgs filter), spec.name = only ∧ spec.kind = .bool then
      [only ++ [':'], only ++ [' ']]
    else [only]
  | longer => longer

section Candidates

variable {c : Clause}

/-- What stands for no argument is not declared. -/
theorem arg?_eq_none (hargs : c.args = r (.filterArgs filter))
    (h : ∀ a, (p, a) ∉ r.spellings filter) : c.arg? p = none := by
  rw [Clause.arg?, List.find?_eq_none, hargs]
  intro spec hspec heq
  apply h spec.name
  apply mem_spellings.mpr
  exact .inl ⟨(eq_of_beq heq).symm, List.mem_map_of_mem hspec⟩

/-- A clause knows the shorthands that the tool's answers give. -/
theorem isShorthand_iff (hshorthands : c.shorthands = r.shorthands filter) :
    c.isShorthand p = true ↔ ∃ a, ⟨p, a⟩ ∈ r.shorthands filter := by
  rw [Clause.isShorthand, List.any_eq_true, hshorthands]
  constructor
  · rintro ⟨⟨v, a⟩, hs, heq⟩
    exact ⟨a, by rwa [← eq_of_beq heq]⟩
  · rintro ⟨a, hs⟩
    exact ⟨_, hs, by simp⟩

/-- The declaration that a clause finds is the only one of its name. -/
theorem any_arg?_iff (hargs : c.args = r (.filterArgs filter))
    (hdistinct : ((r (.filterArgs filter)).map (·.name)).Nodup) :
    (c.arg? t).any (·.kind = .bool) = true ↔
      ∃ spec ∈ r (.filterArgs filter), spec.name = t ∧ spec.kind = .bool := by
  rw [Clause.arg?, hargs, Option.any_eq_true]
  simp only [find?_key_iff hdistinct, decide_eq_true_eq, and_assoc]

/-- A name that is not complete is completed to what goes on from it. -/
theorem nameCandidates_eq (hargs : c.args = r (.filterArgs filter))
    (hshorthands : c.shorthands = r.shorthands filter)
    (hdistinct : ((r (.filterArgs filter)).map (·.name)).Nodup)
    (h : ∀ a, (p, a) ∉ r.spellings filter) :
    c.nameCandidates p = r.narrowed filter p c.unusedNames := by
  have hliteral : ¬ c.isShorthand p = true := by
    rw [isShorthand_iff hshorthands]
    rintro ⟨a, hs⟩
    exact h a (mem_spellings.mpr (.inr hs))
  rw [Clause.nameCandidates, narrowed, if_neg hliteral, arg?_eq_none hargs h]
  generalize startingWith p c.unusedNames = longer
  cases longer with
  | nil => rfl
  | cons only rest =>
    cases rest with
    | nil => simp only [any_arg?_iff hargs hdistinct, Clause.toggles]
    | cons _ _ => rfl

/-- Behind the forms of a name that is complete stands what goes on from it. -/
theorem mem_nameCandidates (hargs : c.args = r (.filterArgs filter))
    (hshorthands : c.shorthands = r.shorthands filter) (h : (p, a) ∈ r.spellings filter)
    (ht : t ∈ c.unusedNames) (hstarts : p <+: t) : t ∈ c.nameCandidates p := by
  have hlonger : t ∈ startingWith p c.unusedNames := mem_startingWith.mpr ⟨ht, hstarts⟩
  rw [Clause.nameCandidates]
  cases mem_spellings.mp h with
  | inr hs =>
    rw [if_pos ((isShorthand_iff hshorthands).mpr ⟨a, hs⟩)]
    exact List.mem_append_right _ hlonger
  | inl hname =>
    obtain ⟨rfl, hname⟩ := hname
    obtain ⟨spec, hspec, rfl⟩ := List.mem_map.mp hname
    split
    · exact List.mem_append_right _ hlonger
    · cases harg : c.arg? spec.name with
      | some _ => exact List.mem_append_right _ hlonger
      | none =>
        rw [Clause.arg?, List.find?_eq_none, hargs] at harg
        exact absurd (by simp) (harg spec hspec)

end Candidates

end Reply

namespace Engine

open PathSource

variable {r : Reply} {reply : Text → Except (Text × FileError) (List Text)} {s : Session}
  {line word filter p a : Text} {cursor : Nat} {earlier options : List Text} {q : Bool}

variable (reply) in
/-- The tool always answers, so a request in a clause of a known filter finds what its last option
offers. -/
theorem complete_clause (hfilters : ∀ f ∈ r .filters, f.AllWord) (hs : s.data.Sound r)
    (hfilter : filter ∈ r .filters)
    (hcontext : Context.ofCursor line cursor = .filterClause word q)
    (hword : segments word = filter :: options) (hne : options ≠ []) :
    ∃ s', (complete (.failing r fun _ _ => none) (.fixed reply) line cursor).result s =
      (.ok (((Clause.told (r.answer (offers reply)) filter options).lastOption q).eval
        (r.answer (offers reply))), s') := by
  obtain ⟨s', h⟩ := complete_ok reply line cursor
    (fun f hf => (hfilters f hf).not_mem_of_mark (by decide)) hs
  refine ⟨s', ?_⟩
  rw [h, eval_candidates hcontext hword hne fun f hf => (hfilters f hf).not_mem_of_mark (by decide)]
  exact congrArg (fun found => (Except.ok found, s')) (if_pos hfilter)

variable (reply) in
/-- Word characters that stand behind the last colon are completed as a name. -/
theorem complete_typed (hfilters : ∀ f ∈ r .filters, f.AllWord) (hfilter : filter ∈ r .filters)
    (hcontext : Context.ofCursor line line.length = .filterClause word q)
    (hword : segments word = filter :: (earlier ++ [[]])) (hp : p.AllWord)
    (hs : s.data.Sound r) :
    ∃ s', (complete (.failing r fun _ _ => none) (.fixed reply) (line ++ p)
      (line ++ p).length).result s =
        (.ok (if p = [] then r.free filter (earlier ++ [[]]) else
          (Clause.told (r.answer (offers reply)) filter (earlier ++ [p])).nameCandidates p), s') := by
  obtain ⟨htyped, hsegments⟩ := context_of_typed hcontext hword hp
  obtain ⟨s', h⟩ := complete_clause reply hfilters hs hfilter htyped hsegments (by simp)
  rw [Clause.lastOption_of_name List.getLast?_concat hp.head?_ne_hash (hp.not_mem_of_mark (by decide)),
    Inquiry.eval_pure, Reply.unusedNames_eq] at h
  refine ⟨s', h.trans ?_⟩
  by_cases hne : p = []
  · rw [if_pos hne, if_pos hne, hne]
  · rw [if_neg hne, if_neg hne]

variable (reply) in
/-- A name that is being typed narrows the list that is offered behind the colon. That list has the
names of the arguments that the options before do not take, and then their literals, each once. Typing
on leaves those that begin with what is typed, unless it is complete already; a single switch that is
left is offered ended. None of them may be empty: what is typed behind the colon would stand for it. -/
theorem partial_name_narrows
    (hspelled : ∀ q : Query, q.Spelled Text.AllWord (fun _ => True) (r q))
    (hdistinct : ((r (.filterArgs filter)).map (·.name)).Nodup) (hfilter : filter ∈ r .filters)
    (hcontext : Context.ofCursor line line.length = .filterClause word q)
    (hword : segments word = filter :: (earlier ++ [[]])) (hempty : [] ∉ r.free filter earlier)
    (hp : p.IsName) (hpartial : ∀ a, (p, a) ∉ r.spellings filter) (hs : s.data.Sound r) :
    (r.free filter earlier).Nodup ∧
    (∃ s', (complete (.failing r fun _ _ => none) (.fixed reply) line line.length).result s =
      (.ok (r.free filter earlier), s')) ∧
    ∃ s', (complete (.failing r fun _ _ => none) (.fixed reply) (line ++ p)
      (line ++ p).length).result s = (.ok (r.narrowed filter p (r.free filter earlier)), s') := by
  have hfilters : ∀ f ∈ r .filters, f.AllWord := hspelled .filters
  have hnone : Text.AllWord [] := by simp [Text.AllWord]
  have hfresh : p ∉ r.free filter earlier := by
    rw [Reply.mem_free]
    rintro ⟨a, hstands, -⟩
    exact hpartial a hstands
  refine ⟨Reply.nodup_free hdistinct, ?_, ?_⟩
  · obtain ⟨s', h⟩ := complete_typed reply hfilters hfilter hcontext hword hnone hs
    rw [if_pos rfl, List.append_nil, Reply.free_concat hnone hempty] at h
    exact ⟨s', h⟩
  · obtain ⟨s', h⟩ := complete_typed reply hfilters hfilter hcontext hword hp.word hs
    rw [if_neg hp.ne_nil, Reply.nameCandidates_eq rfl rfl hdistinct hpartial, Reply.unusedNames_eq,
      Reply.free_concat hp.word hfresh] at h
    exact ⟨s', h⟩

variable (reply) in
/-- A name that is complete offers those that go on from it, but none that stands for what it stands for
itself. -/
theorem complete_name_extended
    (hspelled : ∀ q : Query, q.Spelled Text.AllWord Text.AllWord (r q)) (hfilter : filter ∈ r .filters)
    (hcontext : Context.ofCursor line line.length = .filterClause word q)
    (hword : segments word = filter :: (earlier ++ [[]])) (hp : (p, a) ∈ r.spellings filter)
    (hs : s.data.Sound r) :
    ∃ found s', (complete (.failing r fun _ _ => none) (.fixed reply) (line ++ p)
      (line ++ p).length).result s = (.ok found, s') ∧
      ∀ t b, (t, b) ∈ r.spellings filter → p <+: t → t ≠ p →
        (∀ option ∈ earlier, ¬ r.Takes filter option b) → (t ∈ found ↔ b ≠ a) := by
  have hanswers := Reply.spelled_answer hspelled (offers reply)
  have hwords : ∀ t b, (t, b) ∈ r.spellings filter → t.AllWord :=
    fun t b h => Reply.allWord_of_spellings hanswers h
  have hpword := hwords p a hp
  obtain ⟨s', h⟩ := complete_typed reply (hspelled .filters) hfilter hcontext hword hpword hs
  refine ⟨_, s', h, fun t b ht hstarts hne hunused => ?_⟩
  have hfree : t ∈ r.free filter (earlier ++ [p]) ↔ b ≠ a := by
    rw [Reply.mem_free_concat hpword ht, and_iff_right hunused]
    constructor
    · rintro hfresh rfl
      exact hfresh hp
    · exact fun hother hsame => hother (Reply.spellings_unique hsame hp)
  rw [← hfree]
  split
  · rename_i hnil
    rw [hnil]
  · rw [← Reply.unusedNames_eq (offers reply)]
    constructor
    · intro hmem
      have hoffer := Clause.nameOffer_of_mem hmem
      apply (hoffer.unused_or_eq _ (hwords t b ht) (.inl rfl)).resolve_right hne
      intro u hu
      exact Clause.name_of_unused (hanswers.args filter) (hanswers.shorthands filter) hu
    · exact fun hmem => Reply.mem_nameCandidates rfl rfl hp hmem hstarts

/-- A tool with one filter that has an enumeration whose literals begin alike, a string and a switch. -/
def inspection : Reply
  | .version => none
  | .filters => ["inspect"]
  | .modules | .props => []
  | .protocols => []
  | .filterArgs _ => [⟨"test", .enum⟩, ⟨"note", .str⟩, ⟨"deep", .bool⟩]
  | .argument _ argument =>
    if argument = ("test" : Text) then ⟨some .enum, ["no", "noprop", "nocrc"]⟩ else ⟨none, []⟩

def inspected (line : Text) : Except ToolError (List Text) × Session :=
  (complete (.failing inspection fun _ _ => none) (.fixed fun _ => .ok []) line line.length).result {}

def inspectionSpellings : List (Text × Text) :=
  [(("test" : Text), ("test" : Text)), (("note" : Text), ("note" : Text)),
    (("deep" : Text), ("deep" : Text)), (("no" : Text), ("test" : Text)),
    (("noprop" : Text), ("test" : Text)), (("nocrc" : Text), ("test" : Text))]

theorem spellings_inspection : inspection.spellings "inspect" = inspectionSpellings := by
  decide +kernel

theorem spelled_inspection (q : Query) : q.Spelled Text.IsName Text.IsName (inspection q) := by
  cases q with
  | argument f a =>
    simp only [Query.Spelled, inspection]
    split <;> decide +kernel
  | filterArgs f =>
    have hargs : ∀ spec ∈ inspection (.filterArgs []), spec.name.IsName := by decide +kernel
    exact hargs
  | _ => simp only [Query.Spelled, inspection] <;> decide +kernel

theorem partial_name_narrows_inspection :
    (inspected "gpac inspect:nocrc:").1 = .ok [("note" : Text), ("deep" : Text)] ∧
      (inspected "gpac inspect:nocrc:n").1 = .ok [("note" : Text)] ∧
      (inspected "gpac inspect:nocrc:d").1 = .ok [("deep:" : Text), ("deep " : Text)] := by
  have hspelled : ∀ q : Query, q.Spelled Text.AllWord (fun _ => True) (inspection q) :=
    fun q => (spelled_inspection q).mono (fun _ h => h.word) fun _ _ => trivial
  have hcontext : Context.ofCursor "gpac inspect:nocrc:" 19 = .filterClause "inspect:nocrc:" false := by
    decide
  have hsegments : segments "inspect:nocrc:" = ("inspect" : Text) :: ([("nocrc" : Text)] ++ [[]]) := by
    decide
  have hfree : inspection.free "inspect" [("nocrc" : Text)] = [("note" : Text), ("deep" : Text)] := by
    decide +kernel
  have hempty : [] ∉ inspection.free "inspect" [("nocrc" : Text)] := by
    rw [hfree]
    decide
  have hnarrows := fun (p : Text) hp hpartial =>
    partial_name_narrows (fun _ => .ok []) hspelled (by decide) (by decide) hcontext hsegments hempty
      (p := p) (s := {}) hp hpartial (SchemaData.sound_empty inspection)
  have hpartial : ∀ p : Text, p ∉ inspectionSpellings.map Prod.fst →
      ∀ a, (p, a) ∉ inspection.spellings "inspect" := by
    intro p hp
    apply Reply.not_mem_spellings
    rwa [spellings_inspection]
  have hnames : Text.IsName "n" ∧ Text.IsName "d" := by decide +kernel
  rw [hfree] at hnarrows
  obtain ⟨-, ⟨_, hlisted⟩, _, hone⟩ := hnarrows "n" hnames.1 (hpartial _ (by decide))
  obtain ⟨-, -, _, hswitch⟩ := hnarrows "d" hnames.2 (hpartial _ (by decide))
  exact ⟨congrArg Prod.fst hlisted, congrArg Prod.fst hone, congrArg Prod.fst hswitch⟩

/-- A tool with one filter that has an enumeration with an empty literal, and a switch. -/
def vacancy : Reply
  | .version => none
  | .filters => ["inspect"]
  | .modules | .props => []
  | .protocols => []
  | .filterArgs _ => [⟨"mode", .enum⟩, ⟨"deep", .bool⟩]
  | .argument _ argument =>
    if argument = ("mode" : Text) then ⟨some .enum, [[], "fast"]⟩ else ⟨none, []⟩

def vacant (line : Text) : Except ToolError (List Text) :=
  ((complete (.failing vacancy fun _ _ => none) (.fixed fun _ => .ok []) line line.length).result {}).1

theorem spellings_vacancy : (vacancy.spellings "inspect").map Prod.fst =
    [("mode" : Text), ("deep" : Text), [], ("fast" : Text)] := by
  decide +kernel

theorem spelled_vacancy (q : Query) : q.Spelled Text.IsName (fun _ => True) (vacancy q) := by
  cases q with
  | filterArgs f =>
    have hargs : ∀ spec ∈ vacancy (.filterArgs []), spec.name.IsName := by decide +kernel
    exact hargs
  | argument f a => exact fun _ _ => trivial
  | _ => simp only [Query.Spelled, vacancy] <;> decide +kernel

/-- What is typed behind the colon, which is nothing, is the empty literal and takes its argument. One
character more does not, so it finds a literal that was not offered behind the colon. -/
theorem empty_literal_hides_argument :
    (∀ q : Query, q.Spelled Text.IsName (fun _ => True) (vacancy q)) ∧
      ((vacancy (.filterArgs "inspect")).map (·.name)).Nodup ∧ ("inspect" : Text) ∈ vacancy .filters ∧
      Context.ofCursor "gpac inspect:" 13 = .filterClause "inspect:" false ∧
      segments "inspect:" = ("inspect" : Text) :: ([] ++ [[]]) ∧
      Text.IsName "f" ∧ (∀ a, (("f" : Text), a) ∉ vacancy.spellings "inspect") ∧
      vacant "gpac inspect:" = .ok [("deep" : Text)] ∧
      vacant "gpac inspect:f" = .ok [("fast" : Text)] ∧
      vacancy.free "inspect" [] = [("mode" : Text), ("deep" : Text), [], ("fast" : Text)] ∧
      vacancy.narrowed "inspect" "f" [("deep" : Text)] = [] := by
  have hpartial : ("f" : Text) ∉ (vacancy.spellings "inspect").map Prod.fst := by
    rw [spellings_vacancy]
    decide
  exact ⟨spelled_vacancy, by decide, by decide, by decide, by decide, by decide +kernel,
    Reply.not_mem_spellings hpartial, by decide +kernel, by decide +kernel, by decide +kernel,
    by decide +kernel⟩

theorem complete_name_extended_inspection :
    ∃ found, (inspected "gpac inspect:no").1 = .ok found ∧ ("note" : Text) ∈ found ∧
      ("noprop" : Text) ∉ found := by
  have hspelled : ∀ q : Query, q.Spelled Text.AllWord Text.AllWord (inspection q) :=
    fun q => (spelled_inspection q).mono (fun _ h => h.word) fun _ h => h.word
  have hcontext : Context.ofCursor "gpac inspect:" 13 = .filterClause "inspect:" false := by decide
  have hsegments : segments "inspect:" = ("inspect" : Text) :: ([] ++ [[]]) := by decide
  have hmem : ∀ e ∈ inspectionSpellings, e ∈ inspection.spellings "inspect" := by
    rw [spellings_inspection]
    exact fun e he => he
  have hliteral := hmem (("no" : Text), ("test" : Text)) (by decide)
  obtain ⟨found, s', hfound, hnames⟩ := complete_name_extended (fun _ => .ok []) hspelled (by decide)
    (s := {}) hcontext hsegments hliteral (SchemaData.sound_empty inspection)
  refine ⟨found, congrArg Prod.fst hfound, ?_, ?_⟩
  · exact (hnames "note" "note" (hmem _ (by decide)) (by decide) (by decide) (by simp)).mpr (by decide)
  · intro hfound
    have hother :=
      (hnames "noprop" "test" (hmem _ (by decide)) (by decide) (by decide) (by simp)).mp hfound
    exact hother rfl

/-- Behind the colon no option takes an argument, but when a literal is complete the others of its
argument are not offered any more. -/
theorem complete_name_hides_longer :
    Context.ofCursor "gpac inspect:" 13 = .filterClause "inspect:" false ∧
      segments "inspect:" = ("inspect" : Text) :: ([] ++ [[]]) ∧
      (("no" : Text), ("test" : Text)) ∈ inspection.spellings "inspect" ∧
      (inspected "gpac inspect:no").1 = .ok [("no " : Text), ("no:" : Text), ("note" : Text)] ∧
      ¬ ∀ t b, (t, b) ∈ inspection.spellings "inspect" → ("no" : Text) <+: t → t ≠ ("no" : Text) →
        (∀ option ∈ ([] : List Text), ¬ inspection.Takes "inspect" option b) →
          t ∈ [("no " : Text), ("no:" : Text), ("note" : Text)] := by
  rw [spellings_inspection]
  refine ⟨by decide, by decide, by decide, by decide +kernel, fun hall => ?_⟩
  have hmem := hall "noprop" "test" (by decide) (by decide) (by decide) (by simp)
  exact absurd hmem (by decide)

end Engine
end FilterLine
