import FilterLine.Proofs.Schema.SnapshotFile

/-!
The other values that say what a snapshot says. Fields of records may stand in any order, unknown ones
between them, and those that say nothing may be missing; tables may list their keys in any order. The
entries of the other objects stay where they are, since their order is kept. Whatever is changed in
these ways is read as before.
-/
namespace FilterLine

/-- The parts of a file whose writing is free to some extent. -/
inductive FilePart where
  | snapshot
  | data
  | args
  | details
  | detail
  | protocols
  | directions (name : Text)
  | shorthands

namespace FilePart

abbrev Content : FilePart → Type
  | snapshot => Snapshot
  | data => SchemaData
  | args => Table (List ArgumentSpec)
  | details => Table ArgumentDetail
  | detail => ArgumentDetail
  | protocols => List Protocol
  | directions _ => Protocol
  | shorthands => Table (List EnumShorthand)

def read : (p : FilePart) → Json → Option p.Content
  | snapshot => Snapshot.ofJson?
  | data => SchemaData.ofJson?
  | args => Json.table? SchemaData.argsOfJson?
  | details => Json.table? ArgumentDetail.ofJson?
  | detail => ArgumentDetail.ofJson?
  | protocols => Json.map? Protocol.ofJson?
  | directions name => Protocol.ofJson? name
  | shorthands => Json.table? SchemaData.shorthandsOfJson?

def fields : FilePart → List Text
  | snapshot => ["version", "cache"]
  | data => SchemaData.fieldNames
  | detail => ["type", "values"]
  | directions _ => ["input", "output"]
  | _ => []

/-- Whether a part is a table, whose entries are sorted when they are read. -/
def IsTable (p : FilePart) : Prop := p = args ∨ p = details ∨ p = shorthands

def below : FilePart → Text → Option FilePart
  | snapshot, key => if key = "cache" then some data else none
  | data, key =>
    if key = "args" then some args
    else if key = "type_arg_filter" then some details
    else if key = "protocols" then some protocols
    else if key = "enum_values" then some shorthands
    else none
  | details, _ => some detail
  | protocols, name => some (directions name)
  | _, _ => none

/-- The fields that say as much as if they were left out. -/
def silent : FilePart → List (Text × Json)
  | snapshot => [("version", .null), ("cache", .object [])]
  | detail => [("type", .null), ("values", .array [])]
  | directions _ => [("input", .array []), ("output", .array [])]
  | _ => []

end FilePart

open Json (record)
open FilePart (snapshot)

/-- The values that a part may be changed into. Fields are added and left out in front, since they may
change their places. -/
inductive Rewrites : FilePart → Json → Json → Prop where
  | refl {p : FilePart} (j : Json) : Rewrites p j j
  | trans {p : FilePart} {j j' j'' : Json} : Rewrites p j j' → Rewrites p j' j'' → Rewrites p j j''
  /-- The fields of a record change their places. -/
  | permute {p : FilePart} {es es' : List (Text × Json)} : p.fields ≠ [] → es.Perm es' →
      Rewrites p (record es) (record es')
  /-- The entries of a table change their places. Their keys are different, as they are in every table
  that is saved. -/
  | shuffle {p : FilePart} {es es' : List (Text × Json)} : p.IsTable → (es.map Prod.fst).Nodup →
      es.Perm es' → Rewrites p (record es) (record es')
  /-- A record gets a field that is not known. -/
  | extend {p : FilePart} {es : List (Text × Json)} {key : Text} (j : Json) : p.fields ≠ [] →
      key ∉ p.fields → Rewrites p (record es) (record ((key, j) :: es))
  /-- A record loses a field that says nothing. -/
  | drop {p : FilePart} {es : List (Text × Json)} {key : Text} {j : Json} : (key, j) ∈ p.silent →
      Rewrites p (record ((key, j) :: es)) (record es)
  /-- One part changes inside another. -/
  | inside {p q : FilePart} {before after : List (Text × Json)} {key : Text} {j j' : Json} :
      p.below key = some q → Rewrites q j j' →
      Rewrites p (record (before ++ (key, j) :: after)) (record (before ++ (key, j') :: after))

/-! ### Fields -/

/-- A field is unique when the entries of its name are one or none. -/
theorem uniqueField?_eq_some_iff {es : List (Text × Json)} {key : Text} {f : Option Json} :
    uniqueField? es key = some f ↔ es.filter (·.1 == key) = f.toList.map (key, ·) := by
  have hkey : ∀ e ∈ es.filter (·.1 == key), e.1 = key := fun e he => by
    simpa using (List.mem_filter.mp he).2
  rw [uniqueField?]
  split
  · rename_i hnil
    rw [hnil]
    cases f <;> simp
  · rename_i e hone
    rw [hone]
    have he : e.1 = key := hkey e (by rw [hone]; simp)
    cases f <;> simp [Prod.ext_iff, he]
  · rename_i hnil hone
    cases f with
    | none => simpa using hnil
    | some j => simpa using hone _

/-- The order of the entries does not matter to a field. -/
theorem uniqueField?_perm {es es' : List (Text × Json)} (h : es.Perm es') {key : Text}
    {f : Option Json} (hf : uniqueField? es key = some f) : uniqueField? es' key = some f := by
  rw [uniqueField?_eq_some_iff] at hf ⊢
  have hperm := (h.filter (·.1 == key)).symm
  rw [hf] at hperm
  cases f with
  | none => exact hperm.eq_nil
  | some j => exact hperm.eq_singleton

/-- The fields of an object are looked up one by one. -/
theorem fields?_record (es : List (Text × Json)) (names : List Text) (required : Nat) :
    (record es).fields? names required = names.mapM (uniqueField? es) := by
  have hentries := Json.entries?_record es
  simp only [record] at hentries
  simp only [record, Json.fields?, hentries, Option.bind_eq_bind, Option.bind_some]

namespace FilePart

/-- How a field may change: it stays, is left out while it says nothing, or holds a part that is still
read the same. -/
inductive Keeps (p : FilePart) (key : Text) : Option Json → Option Json → Prop where
  | same (f : Option Json) : Keeps p key f f
  | silent {j : Json} : (key, j) ∈ p.silent → Keeps p key (some j) none
  | inside {q : FilePart} {j j' : Json} : p.below key = some q →
      (∀ a, q.read j = some a → q.read j' = some a) → Keeps p key (some j) (some j')

/-- How the known fields of a record may change. -/
def KeepsFields (p : FilePart) (es es' : List (Text × Json)) : Prop :=
  ∀ key f, uniqueField? es key = some f → key ∈ p.fields →
    ∃ f', uniqueField? es' key = some f' ∧ p.Keeps key f f'

theorem keepsFields_permute {p : FilePart} {es es' : List (Text × Json)} (h : es.Perm es') :
    p.KeepsFields es es' := fun _ f hf _ => ⟨f, uniqueField?_perm h hf, .same f⟩

/-- An unknown field in front leaves the known ones as they are. -/
theorem keepsFields_extend {p : FilePart} {es : List (Text × Json)} {key : Text} {j : Json}
    (h : key ∉ p.fields) : p.KeepsFields es ((key, j) :: es) := by
  intro key' f hf hkey'
  have hne : key ≠ key' := by
    rintro rfl
    exact h hkey'
  refine ⟨f, ?_, .same f⟩
  rw [uniqueField?_eq_some_iff] at hf ⊢
  rw [List.filter_cons_of_neg (by simpa using hne), hf]

/-- A field that says nothing may be left out. -/
theorem keepsFields_drop {p : FilePart} {es : List (Text × Json)} {key : Text} {j : Json}
    (h : (key, j) ∈ p.silent) : p.KeepsFields ((key, j) :: es) es := by
  intro key' f hf _
  rw [uniqueField?_eq_some_iff] at hf
  by_cases hkey : key = key'
  · subst hkey
    rw [List.filter_cons_of_pos (by simp)] at hf
    cases f with
    | none => cases hf
    | some j' =>
      obtain ⟨hj, hnone⟩ := List.cons.inj hf
      cases hj
      exact ⟨none, uniqueField?_eq_some_iff.mpr hnone, .silent h⟩
  · rw [List.filter_cons_of_neg (by simpa using hkey)] at hf
    exact ⟨f, uniqueField?_eq_some_iff.mpr hf, .same f⟩

/-- A value that is read the same may take the place of another. -/
theorem keepsFields_inside {p q : FilePart} {before after : List (Text × Json)} {key : Text}
    {j j' : Json} (hq : p.below key = some q) (h : ∀ a, q.read j = some a → q.read j' = some a) :
    p.KeepsFields (before ++ (key, j) :: after) (before ++ (key, j') :: after) := by
  intro key' f hf _
  rw [uniqueField?_eq_some_iff, List.filter_append] at hf
  by_cases hkey : key = key'
  · subst hkey
    rw [List.filter_cons_of_pos (by simp)] at hf
    cases f with
    | none => simp at hf
    | some i =>
      obtain ⟨hbefore, hj, hafter⟩ : before.filter (·.1 == key) = [] ∧ j = i ∧
          after.filter (·.1 == key) = [] := by
        simpa [List.append_eq_cons_iff] using hf
      subst hj
      refine ⟨some j', uniqueField?_eq_some_iff.mpr ?_, .inside hq h⟩
      rw [List.filter_append, hbefore, List.filter_cons_of_pos (by simp), hafter]
      rfl
  · rw [List.filter_cons_of_neg (by simpa using hkey), ← List.filter_append] at hf
    refine ⟨f, uniqueField?_eq_some_iff.mpr ?_, .same f⟩
    rw [List.filter_append, List.filter_cons_of_neg (by simpa using hkey), ← List.filter_append, hf]

/-- How the values of some fields may change. -/
inductive KeepsAll (p : FilePart) : List Text → List (Option Json) → List (Option Json) → Prop where
  | nil : KeepsAll p [] [] []
  | cons {key : Text} {f f' : Option Json} {names : List Text} {fs fs' : List (Option Json)} :
      p.Keeps key f f' → KeepsAll p names fs fs' → KeepsAll p (key :: names) (f :: fs) (f' :: fs')

/-- What keeps each field keeps all of them. -/
theorem KeepsFields.mapM {p : FilePart} {es es' : List (Text × Json)} (h : p.KeepsFields es es')
    {names : List Text} (hnames : names ⊆ p.fields) {fs : List (Option Json)}
    (hfs : names.mapM (uniqueField? es) = some fs) :
    ∃ fs', names.mapM (uniqueField? es') = some fs' ∧ p.KeepsAll names fs fs' := by
  induction names generalizing fs with
  | nil =>
    cases hfs
    exact ⟨[], rfl, .nil⟩
  | cons key names ih =>
    obtain ⟨hkey, hnames⟩ := List.cons_subset.mp hnames
    obtain ⟨f, fs, hf, hrest, rfl⟩ := mapM_cons_eq_some.mp hfs
    obtain ⟨f', hf', hkeeps⟩ := h key f hf hkey
    obtain ⟨fs', hfs', hall⟩ := ih hnames hrest
    exact ⟨f' :: fs', mapM_cons_eq_some.mpr ⟨f', fs', hf', hfs', rfl⟩, .cons hkeeps hall⟩

section Fields

variable {p q : FilePart} {key : Text} {f f' : Option Json} {α : Type} {missing a : α}
  {readField : Json → Option α}

/-- A field that changes so is read the same. -/
theorem Keeps.read (h : p.Keeps key f f')
    (hsilent : ∀ j, (key, j) ∈ p.silent → readField j = some missing)
    (hbelow : ∀ q, p.below key = some q → ∀ j j', (∀ b, q.read j = some b → q.read j' = some b) →
      ∀ a, readField j = some a → readField j' = some a)
    (ha : optionalField missing readField f = some a) :
    optionalField missing readField f' = some a := by
  cases h with
  | same => exact ha
  | silent hj => exact (hsilent _ hj).symm.trans ha
  | inside hq h => exact hbelow _ hq _ _ h _ ha

/-- A field that holds no part is read the same. -/
theorem Keeps.read_plain (h : p.Keeps key f f') (hbelow : p.below key = none)
    (hsilent : ∀ j, (key, j) ∈ p.silent → readField j = some missing)
    (ha : optionalField missing readField f = some a) :
    optionalField missing readField f' = some a :=
  h.read hsilent (fun _ hq => nomatch hbelow.symm.trans hq) ha

/-- A field that holds a part is read the same. -/
theorem Keeps.read_below {missing a : q.Content} (h : p.Keeps key f f')
    (hbelow : p.below key = some q)
    (hsilent : ∀ j, (key, j) ∈ p.silent → q.read j = some missing)
    (ha : optionalField missing q.read f = some a) : optionalField missing q.read f' = some a := by
  refine h.read hsilent (fun q' hq' j j' hread b hb => ?_) ha
  cases hbelow.symm.trans hq'
  exact hread b hb

end Fields

def required : FilePart → Nat
  | snapshot | detail => 1
  | _ => 0

/-- A snapshot is read the same when its fields are kept. -/
theorem read_snapshot_keeps {j j' : Json} {fs fs' : List (Option Json)} {s : Snapshot}
    (hfs : j.fields? snapshot.fields snapshot.required = some fs)
    (hfs' : j'.fields? snapshot.fields snapshot.required = some fs')
    (h : snapshot.KeepsAll snapshot.fields fs fs') (hs : Snapshot.ofJson? j = some s) :
    Snapshot.ofJson? j' = some s := by
  obtain ⟨version, data, hfields, hv, hd⟩ := Snapshot.ofJson?_eq_some_iff.mp hs
  cases hfs.symm.trans hfields
  obtain - | ⟨hversion, - | ⟨hcache, - | -⟩⟩ := h
  have hempty : FilePart.data.read (.object []) = some {} := rfl
  exact Snapshot.ofJson?_eq_some_iff.mpr ⟨_, _, hfs',
    hversion.read_plain rfl (by simp [silent, Json.nullable]) hv,
    hcache.read_below (q := .data) rfl (by simp [silent, hempty]) hd⟩

/-- Data is read the same when its fields are kept. -/
theorem read_data_keeps {j j' : Json} {fs fs' : List (Option Json)} {d : SchemaData}
    (hfs : j.fields? data.fields data.required = some fs)
    (hfs' : j'.fields? data.fields data.required = some fs')
    (h : data.KeepsAll data.fields fs fs') (hd : SchemaData.ofJson? j = some d) :
    SchemaData.ofJson? j' = some d := by
  obtain ⟨filters, modules, args, details, protocols, props, shorthands, hfields, hf, hm, ha, ht, hp,
    hq, hs⟩ := SchemaData.ofJson?_eq_some_iff.mp hd
  cases hfs.symm.trans hfields
  obtain - | ⟨hfilters, - | ⟨hmodules, - | ⟨hargs, - | ⟨hdetails, - | ⟨hprotocols, - | ⟨hprops,
    - | ⟨hshorthands, - | -⟩⟩⟩⟩⟩⟩⟩ := h
  refine SchemaData.ofJson?_eq_some_iff.mpr ⟨_, _, _, _, _, _, _, hfs',
    hfilters.read_plain rfl (by simp [silent]) hf,
    hmodules.read_plain rfl (by simp [silent]) hm,
    hargs.read_below (q := .args) rfl (by simp [silent]) ha,
    hdetails.read_below (q := .details) rfl (by simp [silent]) ht,
    hprotocols.read (by simp [silent]) (fun q' hq' i i' hread l? hl? => ?_) hp,
    hprops.read_plain rfl (by simp [silent]) hq,
    hshorthands.read_below (q := .shorthands) rfl (by simp [silent]) hs⟩
  have hpart : some FilePart.protocols = some q' := hq'
  cases hpart
  obtain ⟨l, hl, rfl⟩ := Option.map_eq_some_iff.mp hl?
  exact Option.map_eq_some_iff.mpr ⟨l, hread l hl, rfl⟩

/-- A detail is read the same when its fields are kept. -/
theorem read_detail_keeps {j j' : Json} {fs fs' : List (Option Json)} {d : ArgumentDetail}
    (hfs : j.fields? detail.fields detail.required = some fs)
    (hfs' : j'.fields? detail.fields detail.required = some fs')
    (h : detail.KeepsAll detail.fields fs fs') (hd : ArgumentDetail.ofJson? j = some d) :
    ArgumentDetail.ofJson? j' = some d := by
  obtain ⟨kind, values, tag, hfields, ht, hk, hv⟩ := ArgumentDetail.ofJson?_eq_some_iff.mp hd
  cases hfs.symm.trans hfields
  obtain - | ⟨hkind, - | ⟨hvalues, - | -⟩⟩ := h
  exact ArgumentDetail.ofJson?_eq_some_iff.mpr ⟨_, _, tag, hfs',
    hkind.read_plain rfl (by simp [silent, Json.nullable]) ht, hk,
    hvalues.read_plain rfl (by simp [silent, Json.texts?]) hv⟩

/-- The filters of a protocol are read the same when the fields are kept. -/
theorem read_directions_keeps {name : Text} {j j' : Json} {fs fs' : List (Option Json)}
    {p : Protocol}
    (hfs : j.fields? (directions name).fields (directions name).required = some fs)
    (hfs' : j'.fields? (directions name).fields (directions name).required = some fs')
    (h : (directions name).KeepsAll (directions name).fields fs fs')
    (hp : Protocol.ofJson? name j = some p) : Protocol.ofJson? name j' = some p := by
  obtain ⟨input, output, hfields, hname, hi, ho⟩ := Protocol.ofJson?_eq_some_iff.mp hp
  cases hfs.symm.trans hfields
  obtain - | ⟨hinput, - | ⟨houtput, - | -⟩⟩ := h
  exact Protocol.ofJson?_eq_some_iff.mpr ⟨_, _, hfs', hname,
    hinput.read_plain rfl (by simp [silent, Json.texts?]) hi,
    houtput.read_plain rfl (by simp [silent, Json.texts?]) ho⟩

/-- What is read as a record has its fields. -/
theorem exists_fields {p : FilePart} (hp : p.fields ≠ []) {j : Json} {a : p.Content}
    (ha : p.read j = some a) : ∃ fs, j.fields? p.fields p.required = some fs := by
  cases p with
  | snapshot | data | detail | directions =>
    obtain ⟨fs, hfs, -⟩ := Option.bind_eq_some_iff.mp ha
    exact ⟨fs, hfs⟩
  | _ => exact absurd rfl hp

/-- A record is read the same while its known fields keep what they say. -/
theorem KeepsFields.read {p : FilePart} {es es' : List (Text × Json)} (hp : p.fields ≠ [])
    (h : p.KeepsFields es es') {a : p.Content} (ha : p.read (record es) = some a) :
    p.read (record es') = some a := by
  obtain ⟨fs, hfs⟩ := exists_fields hp ha
  rw [fields?_record] at hfs
  obtain ⟨fs', hfs', hall⟩ := h.mapM (List.Subset.refl _) hfs
  rw [← fields?_record _ _ p.required] at hfs hfs'
  cases p with
  | snapshot => exact read_snapshot_keeps hfs hfs' hall ha
  | data => exact read_data_keeps hfs hfs' hall ha
  | detail => exact read_detail_keeps hfs hfs' hall ha
  | directions name => exact read_directions_keeps hfs hfs' hall ha
  | _ => exact absurd rfl hp

end FilePart

/-! ### Tables and lists of entries -/

section Entries

variable {α : Type}

theorem mapM_perm {β : Type} {f : β → Option α} {l l' : List β} (h : l.Perm l') {as : List α}
    (has : l.mapM f = some as) : ∃ as', l'.mapM f = some as' ∧ as.Perm as' := by
  induction h generalizing as with
  | nil => exact ⟨as, has, .refl _⟩
  | cons b _ ih =>
    obtain ⟨a, as, ha, hrest, rfl⟩ := mapM_cons_eq_some.mp has
    obtain ⟨as', has', hperm⟩ := ih hrest
    exact ⟨a :: as', mapM_cons_eq_some.mpr ⟨a, as', ha, has', rfl⟩, hperm.cons a⟩
  | swap b c l =>
    obtain ⟨x, xs, hx, hcons, rfl⟩ := mapM_cons_eq_some.mp has
    obtain ⟨y, as, hy, hrest, rfl⟩ := mapM_cons_eq_some.mp hcons
    refine ⟨y :: x :: as, mapM_cons_eq_some.mpr ⟨y, x :: as, hy, ?_, rfl⟩, .swap y x as⟩
    exact mapM_cons_eq_some.mpr ⟨x, as, hx, hrest, rfl⟩
  | trans _ _ ih ih' =>
    obtain ⟨as', has', hperm⟩ := ih has
    obtain ⟨as'', has'', hperm'⟩ := ih' has'
    exact ⟨as'', has'', hperm.trans hperm'⟩

theorem map?_record_eq (read : Text → Json → Option α) (es : List (Text × Json)) :
    (record es).map? read = es.mapM fun e => read e.1 e.2 := by
  rw [Json.map?, Json.entries?_record]
  rfl

/-- An entry may be changed while its value is read the same. -/
theorem map?_inside {read : Text → Json → Option α} {before after : List (Text × Json)} {key : Text}
    {j j' : Json} (h : ∀ a, read key j = some a → read key j' = some a) {as : List α}
    (has : (record (before ++ (key, j) :: after)).map? read = some as) :
    (record (before ++ (key, j') :: after)).map? read = some as := by
  rw [map?_record_eq] at has ⊢
  simp only [List.mapM_append, List.mapM_cons, Option.pure_def, Option.bind_eq_bind,
    Option.bind_eq_some_iff, Option.some.injEq] at has ⊢
  obtain ⟨bs, hbs, -, ⟨a, ha, cs, hcs, rfl⟩, rfl⟩ := has
  exact ⟨bs, hbs, a :: cs, ⟨a, h a ha, cs, hcs, rfl⟩, rfl⟩

/-- A value in a table may be replaced by one that is read the same. -/
theorem table?_inside {read : Json → Option α} {before after : List (Text × Json)} {key : Text}
    {j j' : Json} (h : ∀ a, read j = some a → read j' = some a) {t : Table α}
    (ht : Json.table? read (record (before ++ (key, j) :: after)) = some t) :
    Json.table? read (record (before ++ (key, j') :: after)) = some t := by
  simp only [Json.table?, Option.bind_eq_bind, Option.bind_eq_some_iff, Option.some.injEq] at ht ⊢
  obtain ⟨l, hl, rfl⟩ := ht
  refine ⟨l, map?_inside (fun e he => ?_) hl, rfl⟩
  obtain ⟨a, ha, rfl⟩ := Option.map_eq_some_iff.mp he
  exact Option.map_eq_some_iff.mpr ⟨a, h a ha, rfl⟩

/-- A table keeps the keys of its entries. -/
theorem keys_of_mapM {read : Json → Option α} {es : List (Text × Json)} {l : List (Text × α)}
    (h : (es.mapM fun e => (read e.2).map (e.1, ·)) = some l) :
    l.map Prod.fst = es.map Prod.fst := by
  induction es generalizing l with
  | nil =>
    cases h
    rfl
  | cons e es ih =>
    obtain ⟨d, l, hd, hl, rfl⟩ := mapM_cons_eq_some.mp h
    obtain ⟨a, -, rfl⟩ := Option.map_eq_some_iff.mp hd
    rw [List.map_cons, List.map_cons, ih hl]

/-- The order of entries with distinct keys does not matter to a table. -/
theorem table?_perm {read : Json → Option α} {es es' : List (Text × Json)}
    (hnodup : (es.map Prod.fst).Nodup) (h : es.Perm es') {t : Table α}
    (ht : Json.table? read (record es) = some t) : Json.table? read (record es') = some t := by
  simp only [Json.table?, map?_record_eq, Option.bind_eq_bind, Option.bind_eq_some_iff,
    Option.some.injEq] at ht ⊢
  obtain ⟨l, hl, rfl⟩ := ht
  obtain ⟨l', hl', hperm⟩ := mapM_perm h hl
  refine ⟨l', hl', (Table.ofList_perm hperm ?_).symm⟩
  rw [keys_of_mapM hl]
  exact hnodup

end Entries

/-! ### Reading what was rewritten -/

theorem FilePart.read_inside {p q : FilePart} {before after : List (Text × Json)} {key : Text}
    {j j' : Json} (hq : p.below key = some q) (h : ∀ a, q.read j = some a → q.read j' = some a)
    {a : p.Content} (ha : p.read (record (before ++ (key, j) :: after)) = some a) :
    p.read (record (before ++ (key, j') :: after)) = some a := by
  cases p with
  | snapshot | data => exact (keepsFields_inside hq h).read (by decide) ha
  | details =>
    cases hq
    exact table?_inside h ha
  | protocols =>
    cases hq
    exact map?_inside h ha
  | _ => cases hq

/-- A value that is changed in these ways is read the same. -/
theorem Rewrites.read {p : FilePart} {j j' : Json} (h : Rewrites p j j') {a : p.Content}
    (ha : p.read j = some a) : p.read j' = some a := by
  induction h with
  | refl => exact ha
  | trans _ _ ih ih' => exact ih' (ih ha)
  | permute hp hperm => exact (FilePart.keepsFields_permute hperm).read hp ha
  | shuffle hp hnodup hperm =>
    rcases hp with rfl | rfl | rfl <;> exact table?_perm hnodup hperm ha
  | extend j hp hkey => exact (FilePart.keepsFields_extend hkey).read hp ha
  | @drop p _ _ _ hsilent =>
    refine (FilePart.keepsFields_drop hsilent).read ?_ ha
    intro hnone
    cases p <;> simp [FilePart.fields, FilePart.silent] at hnone hsilent
  | inside hq _ ih => exact FilePart.read_inside hq (fun _ => ih) ha

end FilterLine
