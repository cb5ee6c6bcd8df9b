import FilterLine.Proofs.Json.Printer
import FilterLine.Proofs.Schema.ArgType
import FilterLine.Proofs.Schema.Table
import FilterLine.Proofs.Text.Utf8
import FilterLine.Schema.SnapshotFile

/-!
What a snapshot file keeps. A snapshot whose types were read from tags is read back from its file,
the order and the repetitions of its entries included, and every snapshot that is read from a file,
whatever wrote it, is of this kind.
-/
namespace FilterLine

def ArgumentDetail.Parsed (d : ArgumentDetail) : Prop := ∀ k ∈ d.kind, k.Parsed

/-- Whether every type was read from a tag. -/
structure SchemaData.Parsed (d : SchemaData) : Prop where
  args : ∀ e ∈ d.args.entries, ∀ spec ∈ e.2, spec.kind.Parsed
  details : ∀ e ∈ d.details.entries, e.2.Parsed

def Snapshot.Parsed (s : Snapshot) : Prop := s.data.Parsed

/-! ### Lists of results -/

theorem mapM_map {α β : Type} {f : β → Option α} {g : α → β} {l : List α}
    (h : ∀ a ∈ l, f (g a) = some a) : (l.map g).mapM f = some l := by
  induction l with
  | nil => rfl
  | cons a l ih =>
    rw [List.map_cons, List.mapM_cons, h a (by simp),
      ih (fun b hb => h b (List.mem_cons_of_mem _ hb))]
    rfl

theorem mapM_cons_eq_some {α β : Type} {f : α → Option β} {a : α} {l : List α} {l' : List β} :
    (a :: l).mapM f = some l' ↔ ∃ b bs, f a = some b ∧ l.mapM f = some bs ∧ l' = b :: bs := by
  simp only [List.mapM_cons, Option.pure_def, Option.bind_eq_bind, Option.bind_eq_some_iff,
    Option.some.injEq]
  constructor
  · rintro ⟨b, hb, bs, hbs, rfl⟩
    exact ⟨b, bs, hb, hbs, rfl⟩
  · rintro ⟨b, bs, hb, hbs, rfl⟩
    exact ⟨b, hb, bs, hbs, rfl⟩

theorem exists_of_mem_mapM {α β : Type} {f : α → Option β} {l : List α} {l' : List β}
    (h : l.mapM f = some l') {b : β} (hb : b ∈ l') : ∃ a ∈ l, f a = some b := by
  induction l generalizing l' with
  | nil =>
    cases h
    simp at hb
  | cons a l ih =>
    obtain ⟨c, cs, hc, hcs, rfl⟩ := mapM_cons_eq_some.mp h
    rcases List.mem_cons.mp hb with rfl | hb
    · exact ⟨a, by simp, hc⟩
    · obtain ⟨x, hx, hxb⟩ := ih hcs hb
      exact ⟨x, List.mem_cons_of_mem _ hx, hxb⟩

/-! ### Records -/

/-- The entries of a record some of whose fields are left out. -/
def present (fields : List (Text × Option Json)) : List (Text × Json) :=
  fields.flatMap fun f => f.2.toList.map (f.1, ·)

theorem filter_present (fields : List (Text × Option Json)) (name : Text)
    (h : name ∉ fields.map (·.1)) : (present fields).filter (·.1 == name) = [] := by
  rw [List.filter_eq_nil_iff]
  intro e he
  obtain ⟨f, hf, hef⟩ := List.mem_flatMap.mp he
  obtain ⟨j, -, rfl⟩ := List.mem_map.mp hef
  have hne : f.1 ≠ name := by
    rintro rfl
    exact h (List.mem_map_of_mem hf)
  simpa using hne

/-- A field that is written once is found. -/
theorem uniqueField?_present {fields : List (Text × Option Json)}
    (hnodup : (fields.map (·.1)).Nodup) {f : Text × Option Json} (hf : f ∈ fields) :
    uniqueField? (present fields) f.1 = some f.2 := by
  obtain ⟨before, after, rfl⟩ := List.append_of_mem hf
  rw [List.map_append, List.map_cons] at hnodup
  have hb : f.1 ∉ before.map (·.1) := fun hmem =>
    (List.nodup_append.mp hnodup).2.2 _ hmem _ (by simp) rfl
  have ha : f.1 ∉ after.map (·.1) :=
    (List.nodup_cons.mp (List.nodup_append.mp hnodup).2.1).1
  have hself : (f.2.toList.map (f.1, ·)).filter (·.1 == f.1) = f.2.toList.map (f.1, ·) := by
    rw [List.filter_eq_self]
    simp
  have hall : (present (before ++ f :: after)).filter (·.1 == f.1) = f.2.toList.map (f.1, ·) := by
    have hsplit : present (before ++ f :: after) =
        present before ++ (f.2.toList.map (f.1, ·) ++ present after) := by
      simp [present]
    rw [hsplit, List.filter_append, List.filter_append, filter_present _ _ hb,
      filter_present _ _ ha, hself, List.append_nil, List.nil_append]
  rw [uniqueField?, hall]
  cases f.2 <;> rfl

/-- A record gives back its fields, those left out as missing. -/
theorem fields?_present {fields : List (Text × Option Json)} (hnodup : (fields.map (·.1)).Nodup)
    (required : Nat) :
    (Json.record (present fields)).fields? (fields.map (·.1)) required =
      some (fields.map (·.2)) := by
  have hall : (fields.map (·.1)).mapM (uniqueField? (present fields)) =
      some (fields.map (·.2)) := by
    have h : ∀ l ⊆ fields, (l.map (·.1)).mapM (uniqueField? (present fields)) =
        some (l.map (·.2)) := by
      intro l
      induction l with
      | nil => exact fun _ => rfl
      | cons f l ih =>
        intro hl
        obtain ⟨hf, hl⟩ := List.cons_subset.mp hl
        rw [List.map_cons, List.mapM_cons, uniqueField?_present hnodup hf, ih hl]
        rfl
    exact h fields (List.Subset.refl _)
  have hentries := Json.entries?_record (present fields)
  simp only [Json.record] at hentries
  simp only [Json.record, Json.fields?, hentries, Option.bind_eq_bind, Option.bind_some]
  exact hall

/-- The fields of a record are found as they were written, those left out as missing. -/
theorem fields?_zip {names : List Text} {values : List (Option Json)} (hnodup : names.Nodup)
    (hlength : names.length = values.length) (required : Nat) :
    (Json.record (present (names.zip values))).fields? names required = some values := by
  have hfst : (names.zip values).map (·.1) = names := List.map_fst_zip (Nat.le_of_eq hlength)
  have hsnd : (names.zip values).map (·.2) = values := List.map_snd_zip (Nat.le_of_eq hlength.symm)
  have h := fields?_present (by rw [hfst]; exact hnodup) required
  rw [hfst, hsnd] at h
  exact h

/-! ### Fields -/

def textOrNull : Option Text → Json
  | some t => Json.text t
  | none => .null

theorem nullable_textOrNull (t : Option Text) :
    Json.nullable Json.text? (textOrNull t) = some t := by
  cases t <;> rfl

/-- A list of texts that may be absent, as the value of a field. -/
def listValue? (l : Option (List Text)) : Option Json := l.map Json.texts

theorem optionalField_listValue? (l : Option (List Text)) :
    optionalField none (Json.nullable Json.texts?) (listValue? l) = some l := by
  cases l with
  | none => rfl
  | some l =>
    have h := Json.texts?_texts l
    simp only [Json.texts] at h
    simp only [listValue?, Option.map_some, optionalField, Json.texts, Json.nullable, h]

section Tables

variable {α : Type}

/-- A table as the value of a field that is left out when empty. -/
def tableValue? (value : α → Json) (t : Table α) : Option Json :=
  if t.isEmpty then none else some (Json.record (t.entries.map fun e => (e.1, value e.2)))

theorem map?_record {read : Text → Json → Option α} (key : α → Text) (value : α → Json)
    {l : List α} (h : ∀ a ∈ l, read (key a) (value a) = some a) :
    (Json.record (l.map fun a => (key a, value a))).map? read = some l := by
  rw [Json.map?, Json.entries?_record]
  exact mapM_map h

/-- A table is read back from its field, the empty one from a missing field. -/
theorem optionalField_tableValue? {read : Json → Option α} {value : α → Json} {t : Table α}
    (h : ∀ e ∈ t.entries, read (value e.2) = some e.2) :
    optionalField .empty (Json.table? read) (tableValue? value t) = some t := by
  cases he : t.isEmpty with
  | true =>
    have hnil : t.entries = [] := by simpa [Table.isEmpty] using he
    have ht : t = .empty := Table.eq_of_entries hnil
    subst ht
    rfl
  | false =>
    have hmap : (Json.record (t.entries.map fun e => (e.1, value e.2))).map?
        (fun key v => (read v).map (key, ·)) = some t.entries :=
      map?_record Prod.fst (fun e => value e.2) fun e hmem => by rw [h e hmem]; rfl
    simp [tableValue?, he, optionalField, Json.table?, hmap, Table.ofList_entries]

/-- The values of a table were read from those of an object. -/
theorem exists_of_mem_table? {read : Json → Option α} {j : Json} {t : Table α}
    (h : Json.table? read j = some t) {e : Text × α} (he : e ∈ t.entries) :
    ∃ v, read v = some e.2 := by
  simp only [Json.table?, Json.map?, Option.bind_eq_bind, Option.bind_eq_some_iff,
    Option.some.injEq] at h
  obtain ⟨l, ⟨entries, -, hl⟩, rfl⟩ := h
  obtain ⟨x, -, hx⟩ := exists_of_mem_mapM hl (Table.mem_ofList he)
  obtain ⟨v, hv, rfl⟩ := Option.map_eq_some_iff.mp hx
  exact ⟨x.2, hv⟩

end Tables

/-! ### The records of a snapshot -/

/-- A detail is read from its two fields. -/
theorem ArgumentDetail.ofJson?_eq_some_iff {j : Json} {d : ArgumentDetail} :
    ofJson? j = some d ↔ ∃ kind values tag, j.fields? ["type", "values"] 1 = some [kind, values] ∧
      optionalField none (Json.nullable Json.text?) kind = some tag ∧
      tag.map ArgType.ofTag = d.kind ∧ optionalField [] Json.texts? values = some d.values := by
  simp only [ofJson?, Option.bind_eq_bind, Option.bind_eq_some_iff]
  constructor
  · rintro ⟨fs, hfs, h⟩
    split at h
    · simp only [Option.bind_eq_some_iff, Option.some.injEq] at h
      obtain ⟨tag, htag, values, hvalues, rfl⟩ := h
      exact ⟨_, _, tag, hfs, htag, rfl, hvalues⟩
    · cases h
  · rintro ⟨kind, values, tag, hfs, htag, hkind, hvalues⟩
    refine ⟨_, hfs, ?_⟩
    simp only [Option.bind_eq_some_iff]
    exact ⟨tag, htag, _, hvalues, by rw [hkind]⟩

/-- A detail is read back. -/
theorem ArgumentDetail.ofJson?_toJson {d : ArgumentDetail} (h : d.Parsed) :
    ofJson? d.toJson = some d := by
  obtain ⟨kind, values⟩ := d
  have hjson : toJson ⟨kind, values⟩ = Json.record (present (List.zip ["type", "values"]
      [some (textOrNull (kind.map ArgType.tag)), some (Json.texts values)])) := by
    cases kind <;> rfl
  have hkind : (kind.map ArgType.tag).map ArgType.ofTag = kind := by
    cases kind with
    | none => rfl
    | some k => rw [Option.map_some, Option.map_some, ArgType.ofTag_tag (h k rfl)]
  rw [ofJson?, hjson, fields?_zip (by decide) rfl]
  simp only [Option.bind_eq_bind, Option.bind_some, optionalField, nullable_textOrNull, hkind,
    Json.texts?_texts]

theorem ArgumentDetail.printed_toJson (d : ArgumentDetail) : Json.Printed d.toJson := by
  refine Json.printed_record ?_
  simp only [List.mem_cons, List.not_mem_nil, or_false, forall_eq_or_imp, forall_eq]
  refine ⟨?_, Json.printed_texts d.values⟩
  cases d.kind with
  | none => exact Json.printed_null
  | some k => exact Json.printed_text k.tag

/-- A detail that has been read has a type that was read from a tag. -/
theorem ArgumentDetail.parsed_of_ofJson? {j : Json} {d : ArgumentDetail} (h : ofJson? j = some d) :
    d.Parsed := by
  obtain ⟨-, -, tag, -, -, hkind, -⟩ := ofJson?_eq_some_iff.mp h
  intro k hk
  rw [← hkind] at hk
  obtain ⟨t, -, rfl⟩ := Option.map_eq_some_iff.mp hk
  exact ArgType.parsed_ofTag t

theorem Protocol.ofJson?_eq_some_iff {name : Text} {j : Json} {p : Protocol} :
    ofJson? name j = some p ↔ ∃ input output,
      j.fields? ["input", "output"] 0 = some [input, output] ∧ name = p.name ∧
      optionalField [] Json.texts? input = some p.input ∧
      optionalField [] Json.texts? output = some p.output := by
  simp only [ofJson?, Option.bind_eq_bind, Option.bind_eq_some_iff]
  constructor
  · rintro ⟨fs, hfs, h⟩
    split at h
    · simp only [Option.bind_eq_some_iff, Option.some.injEq] at h
      obtain ⟨input, hinput, output, houtput, rfl⟩ := h
      exact ⟨_, _, hfs, rfl, hinput, houtput⟩
    · cases h
  · rintro ⟨input, output, hfs, rfl, hinput, houtput⟩
    refine ⟨_, hfs, ?_⟩
    simp only [Option.bind_eq_some_iff]
    exact ⟨_, hinput, _, houtput, rfl⟩

/-- A protocol is read back. -/
theorem Protocol.ofJson?_toJson (p : Protocol) :
    ofJson? p.name (Json.record [("input", Json.texts p.input), ("output", Json.texts p.output)]) =
      some p := by
  have hjson : Json.record [("input", Json.texts p.input), ("output", Json.texts p.output)] =
      Json.record (present (List.zip ["input", "output"]
        [some (Json.texts p.input), some (Json.texts p.output)])) := rfl
  rw [ofJson?, hjson, fields?_zip (by decide) rfl]
  simp only [Option.bind_eq_bind, Option.bind_some, optionalField, Json.texts?_texts]

namespace SchemaData

theorem argsOfJson?_argsJson {specs : List ArgumentSpec} (h : ∀ s ∈ specs, s.kind.Parsed) :
    argsOfJson? (argsJson specs) = some specs := by
  refine map?_record ArgumentSpec.name (fun s => Json.text s.kind.tag) fun s hs => ?_
  have hk := ArgType.ofTag_tag (h s hs)
  simp only [Json.text, Json.text?, Option.map_some, hk]

theorem shorthandsOfJson?_shorthandsJson (l : List EnumShorthand) :
    shorthandsOfJson? (shorthandsJson l) = some l :=
  map?_record EnumShorthand.literal (fun s => Json.text s.argument) fun _ _ => rfl

theorem map?_protocolsJson (l : List Protocol) :
    (protocolsJson l).map? Protocol.ofJson? = some l :=
  map?_record Protocol.name
    (fun p => Json.record [("input", Json.texts p.input), ("output", Json.texts p.output)])
    fun p _ => Protocol.ofJson?_toJson p

theorem listField_eq (name : Text) (l : Option (List Text)) :
    listField name l = (listValue? l).toList.map (name, ·) := by
  cases l <;> rfl

theorem tableField_eq {α : Type} (name : Text) (value : α → Json) (t : Table α) :
    tableField name value t = (tableValue? value t).toList.map (name, ·) := by
  cases h : t.isEmpty <;> simp [tableField, tableValue?, h]

theorem protocolsField_eq (l : Option (List Protocol)) :
    protocolsField l = (l.map protocolsJson).toList.map (("protocols" : Text), ·) := by
  cases l <;> rfl

/-- The values of the fields, in order, those left out as missing. -/
def values (d : SchemaData) : List (Option Json) :=
  [listValue? d.filters, listValue? d.modules, tableValue? argsJson d.args,
    tableValue? ArgumentDetail.toJson d.details, d.protocols.map protocolsJson,
    listValue? d.props, tableValue? shorthandsJson d.shorthands]

/-- Data is written as the record of its fields that are present. -/
theorem toJson_eq (d : SchemaData) :
    d.toJson = Json.record (present (fieldNames.zip d.values)) := by
  simp only [toJson, listField_eq, tableField_eq, protocolsField_eq, present, fieldNames, values,
    List.zip_cons_cons, List.zip_nil_right, List.flatMap_cons, List.flatMap_nil, List.append_nil,
    List.append_assoc]

/-- Data is read from its seven fields. -/
theorem ofJson?_eq_some_iff {j : Json} {d : SchemaData} :
    ofJson? j = some d ↔ ∃ filters modules args details protocols props shorthands,
      j.fields? fieldNames 0 =
        some [filters, modules, args, details, protocols, props, shorthands] ∧
      optionalField none (Json.nullable Json.texts?) filters = some d.filters ∧
      optionalField none (Json.nullable Json.texts?) modules = some d.modules ∧
      optionalField .empty (Json.table? argsOfJson?) args = some d.args ∧
      optionalField .empty (Json.table? ArgumentDetail.ofJson?) details = some d.details ∧
      optionalField none (fun v => (v.map? Protocol.ofJson?).map some) protocols =
        some d.protocols ∧
      optionalField none (Json.nullable Json.texts?) props = some d.props ∧
      optionalField .empty (Json.table? shorthandsOfJson?) shorthands = some d.shorthands := by
  simp only [ofJson?, Option.bind_eq_bind, Option.bind_eq_some_iff]
  constructor
  · rintro ⟨fs, hfs, h⟩
    split at h
    · simp only [Option.bind_eq_some_iff, Option.some.injEq] at h
      obtain ⟨filters, hf, modules, hm, args, ha, details, hd, protocols, hp, props, hq, shorthands,
        hs, rfl⟩ := h
      exact ⟨_, _, _, _, _, _, _, hfs, hf, hm, ha, hd, hp, hq, hs⟩
    · cases h
  · rintro ⟨filters, modules, args, details, protocols, props, shorthands, hfs, hf, hm, ha, hd, hp,
      hq, hs⟩
    refine ⟨_, hfs, ?_⟩
    simp only [Option.bind_eq_some_iff]
    exact ⟨_, hf, _, hm, _, ha, _, hd, _, hp, _, hq, _, hs, rfl⟩

/-- Data is read back. -/
theorem ofJson?_toJson {d : SchemaData} (h : d.Parsed) : ofJson? d.toJson = some d := by
  have hargs := optionalField_tableValue? fun e he => argsOfJson?_argsJson (h.args e he)
  have hdetails := optionalField_tableValue? fun e he =>
    ArgumentDetail.ofJson?_toJson (h.details e he)
  have hshorthands := optionalField_tableValue? (t := d.shorthands) fun e _ =>
    shorthandsOfJson?_shorthandsJson e.2
  have hprotocols : optionalField none (fun v => (v.map? Protocol.ofJson?).map some)
      (d.protocols.map protocolsJson) = some d.protocols := by
    cases d.protocols with
    | none => rfl
    | some l => rw [Option.map_some, optionalField, map?_protocolsJson]; rfl
  rw [ofJson?, toJson_eq, fields?_zip (by decide) rfl]
  simp only [values, Option.bind_eq_bind, Option.bind_some, optionalField_listValue?, hargs,
    hdetails, hprotocols, hshorthands]

theorem parsed_of_argsOfJson? {j : Json} {specs : List ArgumentSpec}
    (h : argsOfJson? j = some specs) : ∀ spec ∈ specs, spec.kind.Parsed := by
  intro spec hspec
  simp only [argsOfJson?, Json.map?, Option.bind_eq_bind, Option.bind_eq_some_iff] at h
  obtain ⟨entries, -, hl⟩ := h
  obtain ⟨e, -, he⟩ := exists_of_mem_mapM hl hspec
  obtain ⟨tag, -, rfl⟩ := Option.map_eq_some_iff.mp he
  exact ArgType.parsed_ofTag tag

/-- The values of a table in an optional field were read. -/
theorem exists_of_mem_optionalField {α : Type} {read : Json → Option α} {f : Option Json}
    {t : Table α} (h : optionalField .empty (Json.table? read) f = some t) {e : Text × α}
    (he : e ∈ t.entries) : ∃ v, read v = some e.2 := by
  cases f with
  | none =>
    cases h
    simp [Table.empty] at he
  | some j => exact exists_of_mem_table? h he

theorem parsed_empty : ({} : SchemaData).Parsed :=
  ⟨fun e he => by simp [Table.empty] at he, fun e he => by simp [Table.empty] at he⟩

/-- Whatever is read has types that were read from tags. -/
theorem parsed_of_ofJson? {j : Json} {d : SchemaData} (h : ofJson? j = some d) : d.Parsed := by
  obtain ⟨-, -, args, details, -, -, -, -, -, -, hargs, hdetails, -, -, -⟩ :=
    ofJson?_eq_some_iff.mp h
  refine ⟨fun e he => ?_, fun e he => ?_⟩
  · obtain ⟨v, hv⟩ := exists_of_mem_optionalField hargs he
    exact parsed_of_argsOfJson? hv
  · obtain ⟨v, hv⟩ := exists_of_mem_optionalField hdetails he
    exact ArgumentDetail.parsed_of_ofJson? hv

theorem parsed_of_optionalField {f : Option Json} {d : SchemaData}
    (h : optionalField {} ofJson? f = some d) : d.Parsed := by
  cases f with
  | none =>
    cases h
    exact parsed_empty
  | some j => exact parsed_of_ofJson? h

theorem printed_tableField {α : Type} {name : Text} {value : α → Json} {t : Table α}
    (h : ∀ a, Json.Printed (value a)) : ∀ e ∈ tableField name value t, Json.Printed e.2 := by
  intro e he
  rw [tableField] at he
  split at he
  · simp at he
  · rw [List.mem_singleton.mp he]
    refine Json.printed_record fun d hd => ?_
    obtain ⟨c, -, rfl⟩ := List.mem_map.mp hd
    exact h c.2

theorem printed_listField {name : Text} {l : Option (List Text)} :
    ∀ e ∈ listField name l, Json.Printed e.2 := by
  intro e he
  cases l with
  | none => simp [listField] at he
  | some l =>
    rw [List.mem_singleton.mp he]
    exact Json.printed_texts l

theorem printed_argsJson (specs : List ArgumentSpec) : Json.Printed (argsJson specs) := by
  refine Json.printed_record fun e he => ?_
  obtain ⟨s, -, rfl⟩ := List.mem_map.mp he
  exact Json.printed_text _

theorem printed_shorthandsJson (l : List EnumShorthand) : Json.Printed (shorthandsJson l) := by
  refine Json.printed_record fun e he => ?_
  obtain ⟨s, -, rfl⟩ := List.mem_map.mp he
  exact Json.printed_text _

theorem printed_protocolsField {l : Option (List Protocol)} :
    ∀ e ∈ protocolsField l, Json.Printed e.2 := by
  intro e he
  cases l with
  | none => simp [protocolsField] at he
  | some l =>
    rw [List.mem_singleton.mp he]
    refine Json.printed_record fun d hd => ?_
    obtain ⟨p, -, rfl⟩ := List.mem_map.mp hd
    refine Json.printed_record ?_
    simp only [List.mem_cons, List.not_mem_nil, or_false, forall_eq_or_imp, forall_eq]
    exact ⟨Json.printed_texts _, Json.printed_texts _⟩

/-- Data is written as a value that the printer writes. -/
theorem printed_toJson (d : SchemaData) : Json.Printed d.toJson := by
  refine Json.printed_record ?_
  simp only [List.forall_mem_append]
  exact ⟨⟨⟨⟨⟨⟨printed_listField, printed_listField⟩, printed_tableField printed_argsJson⟩,
    printed_tableField ArgumentDetail.printed_toJson⟩, printed_protocolsField⟩, printed_listField⟩,
    printed_tableField printed_shorthandsJson⟩

end SchemaData

namespace Snapshot

/-- A snapshot is read from its two fields. -/
theorem ofJson?_eq_some_iff {j : Json} {s : Snapshot} :
    ofJson? j = some s ↔ ∃ version data, j.fields? ["version", "cache"] 1 = some [version, data] ∧
      optionalField none (Json.nullable Json.text?) version = some s.version ∧
      optionalField {} SchemaData.ofJson? data = some s.data := by
  simp only [ofJson?, Option.bind_eq_bind, Option.bind_eq_some_iff]
  constructor
  · rintro ⟨fs, hfs, h⟩
    split at h
    · simp only [Option.bind_eq_some_iff, Option.some.injEq] at h
      obtain ⟨version, hversion, data, hdata, rfl⟩ := h
      exact ⟨_, _, hfs, hversion, hdata⟩
    · cases h
  · rintro ⟨version, data, hfs, hversion, hdata⟩
    refine ⟨_, hfs, ?_⟩
    simp only [Option.bind_eq_some_iff]
    exact ⟨_, hversion, _, hdata, rfl⟩

/-- A snapshot is read back. -/
theorem ofJson?_toJson {s : Snapshot} (h : s.Parsed) : ofJson? s.toJson = some s := by
  obtain ⟨version, data⟩ := s
  have hjson : toJson ⟨version, data⟩ = Json.record (present (List.zip ["version", "cache"]
      [some (textOrNull version), some data.toJson])) := by
    cases version <;> rfl
  have hdata : SchemaData.ofJson? data.toJson = some data := SchemaData.ofJson?_toJson h
  rw [ofJson?, hjson, fields?_zip (by decide) rfl]
  simp only [Option.bind_eq_bind, Option.bind_some, optionalField, nullable_textOrNull, hdata]

/-- What has been read keeps types that were read from tags. -/
theorem parsed_of_ofJson? {j : Json} {s : Snapshot} (h : ofJson? j = some s) : s.Parsed := by
  obtain ⟨-, data, -, -, hdata⟩ := ofJson?_eq_some_iff.mp h
  exact SchemaData.parsed_of_optionalField hdata

theorem printed_toJson (s : Snapshot) : Json.Printed s.toJson := by
  refine Json.printed_record ?_
  simp only [List.mem_cons, List.not_mem_nil, or_false, forall_eq_or_imp, forall_eq]
  refine ⟨?_, SchemaData.printed_toJson s.data⟩
  cases s.version with
  | none => exact Json.printed_null
  | some v => exact Json.printed_text v

/-- Reading the compact text, or that of the file, gives the snapshot back. -/
theorem ofText?_print {s : Snapshot} (h : s.Parsed) (style : Json.Style) (level : Nat) :
    ofText? (s.toJson.print style level) = some s := by
  rw [ofText?, Json.parse?_print s.printed_toJson, Option.bind_some, ofJson?_toJson h]

/-- A file is read as the text that it encodes. -/
theorem load?_encode (t : Text) : load? (Utf8.encode t) = ofText? t := by
  rw [load?, Utf8.decode?_encode, Option.bind_some]

/-- What is saved is loaded. -/
theorem load?_save {s : Snapshot} (h : s.Parsed) : load? (Utf8.encode s.save) = some s := by
  rw [load?_encode]
  exact ofText?_print h .spread 0

theorem parsed_of_load? {content : Bytes} {s : Snapshot} (h : load? content = some s) :
    s.Parsed := by
  simp only [load?, ofText?, Option.bind_eq_some_iff] at h
  obtain ⟨t, -, j, -, hj⟩ := h
  exact parsed_of_ofJson? hj

/-- A snapshot is read back from its file and from its compact text, whatever texts it holds and
however often they are repeated; every file that is read keeps such a snapshot, and is written
again as the same bytes once it has been read and written. -/
theorem file_roundtrip :
    (∀ s : Snapshot, s.Parsed →
      load? (Utf8.encode s.save) = some s ∧ ofText? s.toJson.compact = some s) ∧
    (∀ (content : Bytes) (s : Snapshot), load? content = some s →
      s.Parsed ∧ load? (Utf8.encode s.save) = some s ∧
        ∀ s', load? (Utf8.encode s.save) = some s' →
          Utf8.encode s'.save = Utf8.encode s.save) := by
  constructor
  · intro s h
    exact ⟨load?_save h, ofText?_print h .compact 0⟩
  · intro content s h
    have hparsed := parsed_of_load? h
    have hs := load?_save hparsed
    refine ⟨hparsed, hs, ?_⟩
    intro s' hs'
    rw [hs, Option.some.injEq] at hs'
    rw [hs']

/-- A snapshot with names given twice, texts that must be escaped, and parts that are empty. -/
def unusual : Snapshot where
  version := some ['v', Char.ofNat 0, '\"', '\\', Char.ofNat 0x1f3ac]
  data := {
    filters := some []
    args := ⟨[("a", []), ("b", [⟨"x\n", .enum⟩, ⟨"x\n", .other "kind"⟩])], by decide⟩
    details := ⟨[("b.x\n", ⟨none, ["\t", "\t", ""]⟩)], by decide⟩
    protocols := some [⟨"file", [], ["mux"]⟩, ⟨"file", ["demux"], []⟩]
    shorthands := ⟨[("b", [⟨"\t", "x\n"⟩, ⟨"\t", "x\n"⟩])], by decide⟩ }

theorem parsed_unusual : unusual.Parsed := by
  constructor
  · intro e he spec hspec
    simp only [unusual, List.mem_cons, List.not_mem_nil, or_false] at he
    rcases he with rfl | rfl
    · simp at hspec
    · simp only [List.mem_cons, List.not_mem_nil, or_false] at hspec
      rcases hspec with rfl | rfl
      · exact ⟨"enum", by decide⟩
      · exact ⟨"kind", by decide⟩
  · intro e he k hk
    simp only [unusual, List.mem_singleton] at he
    subst he
    cases hk

theorem file_roundtrip_unusual :
    unusual.Parsed ∧ load? (Utf8.encode unusual.save) = some unusual ∧
      ofText? unusual.toJson.compact = some unusual ∧
      ∀ s', load? (Utf8.encode unusual.save) = some s' →
        Utf8.encode s'.save = Utf8.encode unusual.save := by
  obtain ⟨hload, hcompact⟩ := file_roundtrip.1 unusual parsed_unusual
  obtain ⟨hparsed, -, hbytes⟩ := file_roundtrip.2 (Utf8.encode unusual.save) unusual hload
  exact ⟨hparsed, hload, hcompact, hbytes⟩

end Snapshot
end FilterLine
