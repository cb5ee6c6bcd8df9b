import Mathlib
import FilterLine.Proofs.Json.Soundness
import FilterLine.Proofs.Schema.Rewriting

/-!
The other texts of a snapshot. A file need not be written the way snapshots are saved: its value may be
rewritten, and the text of the value may use other blanks and escapes. Each such text is read as the
same snapshot. A text that gives a field of a record twice, or that goes on after the value, is not read
at all.
-/
namespace FilterLine

open Json (record Gap Writes)
open FilePart (snapshot)

/-- The values that give a known field of some record twice. -/
inductive Repeats : FilePart → Json → Prop where
  | here {p : FilePart} {es : List (Option Text × Json)} {key : Text} : key ∈ p.fields →
      (es.map Prod.fst).Duplicate (some key) → Repeats p (.object es)
  | inside {p q : FilePart} {es : List (Option Text × Json)} {key : Text} {j : Json} :
      p.below key = some q → (some key, j) ∈ es → Repeats q j → Repeats p (.object es)
  /-- The record around it may be written as an array. -/
  | inOrder {p q : FilePart} {items : List Json} {i : Nat} {key : Text} {j : Json} :
      p.fields[i]? = some key → p.below key = some q → items[i]? = some j → Repeats q j →
      Repeats p (.array items)

/-- The texts that write a snapshot. -/
def Snapshot.WrittenAs (s : Snapshot) (t : Text) : Prop :=
  ∃ j g k g', Rewrites snapshot s.toJson j ∧ Gap g ∧ Writes k (.value j) ∧ Gap g' ∧
    t = g ++ (k ++ g')

/-- Whether a text gives a known field of some record of a snapshot twice. -/
def GivesTwice (t : Text) : Prop :=
  ∃ j g k g', Repeats snapshot j ∧ Gap g ∧ Writes k (.value j) ∧ Gap g' ∧ t = g ++ (k ++ g')

/-- Whether a text writes a value and goes on after it. -/
def GoesOn (t : Text) : Prop :=
  ∃ j g k g' c rest, Gap g ∧ Writes k (.value j) ∧ Gap g' ∧ Json.isGap c = false ∧
    t = g ++ (k ++ (g' ++ c :: rest))

/-! ### Fields given twice -/

theorem exists_mem_zip_of_mapM {α β : Type} {f : α → Option β} {l : List α} {l' : List β}
    (h : l.mapM f = some l') {a : α} (ha : a ∈ l) : ∃ b, f a = some b ∧ (a, b) ∈ l.zip l' := by
  induction l generalizing l' with
  | nil => cases ha
  | cons c l ih =>
    obtain ⟨b, bs, hb, hbs, rfl⟩ := mapM_cons_eq_some.mp h
    rcases List.mem_cons.mp ha with rfl | ha
    · exact ⟨b, hb, by simp⟩
    · obtain ⟨b', hb', hmem⟩ := ih hbs ha
      exact ⟨b', hb', List.mem_cons_of_mem _ hmem⟩

/-- When all keys spell texts the object is a record. -/
theorem eq_record_of_entries? {es : List (Option Text × Json)} {entries : List (Text × Json)}
    (h : (Json.object es).entries? = some entries) :
    es = entries.map fun e => (some e.1, e.2) := by
  rw [Json.entries?] at h
  induction es generalizing entries with
  | nil =>
    cases h
    rfl
  | cons e es ih =>
    obtain ⟨d, entries, hd, hentries, rfl⟩ := mapM_cons_eq_some.mp h
    obtain ⟨key, hkey, rfl⟩ := Option.map_eq_some_iff.mp hd
    rw [List.map_cons, ← ih hentries, ← hkey]

/-- A field that is unique is not given twice. -/
theorem not_duplicate_of_uniqueField? {entries : List (Text × Json)} {key : Text} {f : Option Json}
    (h : uniqueField? entries key = some f) : ¬ (entries.map Prod.fst).Duplicate key := by
  rw [uniqueField?_eq_some_iff] at h
  intro hdup
  have htwice := (List.duplicate_iff_sublist.mp hdup).filter (· == key)
  have hfields : (entries.map Prod.fst).filter (· == key) = f.toList.map fun _ => key := by
    rw [List.filter_map]
    exact (congrArg (List.map Prod.fst) h).trans (List.map_map ..)
  rw [hfields] at htwice
  have hlength := htwice.length_le
  cases f <;> simp at hlength

theorem duplicate_of_some {entries : List (Text × Json)} {key : Text}
    (h : ((entries.map fun e => (some e.1, e.2)).map Prod.fst).Duplicate (some key)) :
    (entries.map Prod.fst).Duplicate key := by
  have hkeys : (entries.map fun e => (some e.1, e.2)).map Prod.fst =
      (entries.map Prod.fst).map some := by simp
  rw [hkeys, List.duplicate_iff_sublist, List.sublist_map_iff] at h
  obtain ⟨l, hl, htwice⟩ := h
  obtain rfl : l = [key, key] :=
    List.map_injective_iff.mpr (fun _ _ h => Option.some.inj h) htwice.symm
  exact List.duplicate_iff_sublist.mpr hl

/-- A record that is written as an array holds its items in the order of its fields. -/
theorem mem_zip_of_array {items : List Json} {names : List Text} {required : Nat}
    {fs : List (Option Json)} (hfs : (Json.array items).fields? names required = some fs) {i : Nat}
    {key : Text} {j : Json} (hkey : names[i]? = some key) (hitem : items[i]? = some j) :
    (key, some j) ∈ names.zip fs := by
  rw [Json.fields?] at hfs
  split at hfs
  · cases hfs
    have hi : i < items.length := (List.getElem?_eq_some_iff.mp hitem).1
    refine List.mem_of_getElem? (i := i) (List.getElem?_zip_eq_some.mpr ⟨hkey, ?_⟩)
    rw [List.getElem?_append_left (by simpa using hi), List.getElem?_map, hitem]
    rfl
  · cases hfs

namespace FilePart

variable {p q : FilePart} {a : p.Content} {j : Json} {key : Text}

/-- What is read in an object has keys that spell texts. -/
theorem exists_entries {es : List (Option Text × Json)} (ha : p.read (.object es) = some a) :
    ∃ entries : List (Text × Json), es = entries.map fun e => (some e.1, e.2) := by
  have hentries : ∃ entries, (Json.object es).entries? = some entries := by
    by_cases hp : p.fields = []
    · cases p with
      | args | details | shorthands =>
        obtain ⟨l, hl, -⟩ := Option.bind_eq_some_iff.mp ha
        obtain ⟨entries, hentries, -⟩ := Option.bind_eq_some_iff.mp hl
        exact ⟨entries, hentries⟩
      | protocols =>
        obtain ⟨entries, hentries, -⟩ := Option.bind_eq_some_iff.mp ha
        exact ⟨entries, hentries⟩
      | _ => cases hp
    · obtain ⟨fs, hfs⟩ := exists_fields hp ha
      obtain ⟨entries, hentries, -⟩ := Option.bind_eq_some_iff.mp hfs
      exact ⟨entries, hentries⟩
  obtain ⟨entries, hentries⟩ := hentries
  exact ⟨entries, eq_record_of_entries? hentries⟩

/-- The parts of a record stand under its fields. -/
theorem mem_fields_of_below (hp : p.fields ≠ []) (hq : p.below key = some q) : key ∈ p.fields := by
  cases p with
  | snapshot =>
    simp only [below] at hq
    split at hq
    · simp [fields, *]
    · cases hq
  | data =>
    simp only [below] at hq
    split_ifs at hq <;> simp [fields, SchemaData.fieldNames, *]
  | details | protocols => exact absurd rfl hp
  | _ => cases hq

/-- A record is read only if the parts in its fields are. -/
theorem exists_read_field (ha : p.read j = some a) {fs : List (Option Json)}
    (hfs : j.fields? p.fields p.required = some fs) {i : Json}
    (hi : (key, some i) ∈ p.fields.zip fs) (hq : p.below key = some q) :
    ∃ b, q.read i = some b := by
  cases p with
  | snapshot =>
    obtain ⟨version, data, hfields, -, hdata⟩ := Snapshot.ofJson?_eq_some_iff.mp ha
    cases hfs.symm.trans hfields
    simp only [fields, List.zip_cons_cons, List.zip_nil_right, List.mem_cons, Prod.mk.injEq,
      List.not_mem_nil, or_false] at hi
    rcases hi with ⟨rfl, rfl⟩ | ⟨rfl, rfl⟩
    · cases hq
    · cases hq
      exact ⟨_, hdata⟩
  | data =>
    obtain ⟨filters, modules, args, details, protocols, props, shorthands, hfields, -, -, hargs,
      hdetails, hprotocols, -, hshorthands⟩ := SchemaData.ofJson?_eq_some_iff.mp ha
    cases hfs.symm.trans hfields
    simp only [fields, SchemaData.fieldNames, List.zip_cons_cons, List.zip_nil_right, List.mem_cons,
      Prod.mk.injEq, List.not_mem_nil, or_false] at hi
    rcases hi with ⟨rfl, rfl⟩ | ⟨rfl, rfl⟩ | ⟨rfl, rfl⟩ | ⟨rfl, rfl⟩ | ⟨rfl, rfl⟩ | ⟨rfl, rfl⟩ |
      ⟨rfl, rfl⟩
    · cases hq
    · cases hq
    · cases hq
      exact ⟨_, hargs⟩
    · cases hq
      exact ⟨_, hdetails⟩
    · cases hq
      obtain ⟨l, hl, -⟩ := Option.map_eq_some_iff.mp hprotocols
      exact ⟨l, hl⟩
    · cases hq
    · cases hq
      exact ⟨_, hshorthands⟩
  | details | protocols => cases hi
  | _ => cases hq

/-- An object is read only if the parts in its entries are. -/
theorem exists_read_entry {entries : List (Text × Json)} (ha : p.read (record entries) = some a)
    (hj : (key, j) ∈ entries) (hq : p.below key = some q) : ∃ b, q.read j = some b := by
  by_cases hp : p.fields = []
  · cases p with
    | details =>
      cases hq
      obtain ⟨l, hl, -⟩ := Option.bind_eq_some_iff.mp ha
      rw [map?_record_eq] at hl
      obtain ⟨e, he, -⟩ := exists_mem_zip_of_mapM hl hj
      obtain ⟨d, hd, -⟩ := Option.map_eq_some_iff.mp he
      exact ⟨d, hd⟩
    | protocols =>
      cases hq
      have hl : (record entries).map? Protocol.ofJson? = some a := ha
      rw [map?_record_eq] at hl
      obtain ⟨b, hb, -⟩ := exists_mem_zip_of_mapM hl hj
      exact ⟨b, hb⟩
    | args | shorthands => cases hq
    | _ => cases hp
  · obtain ⟨fs, hfs⟩ := exists_fields hp ha
    have hunique := hfs
    rw [fields?_record] at hunique
    obtain ⟨f, hf, hzip⟩ := exists_mem_zip_of_mapM hunique (mem_fields_of_below hp hq)
    rw [uniqueField?_eq_some_iff] at hf
    have hmem : (key, j) ∈ entries.filter (·.1 == key) := List.mem_filter.mpr ⟨hj, by simp⟩
    rw [hf] at hmem
    obtain ⟨i, hi, hkey⟩ := List.mem_map.mp hmem
    cases hkey
    rw [Option.mem_toList] at hi
    cases hi
    exact exists_read_field ha hfs hzip hq

end FilePart

/-- A value that gives a field twice is not read. -/
theorem Repeats.not_read {p : FilePart} {j : Json} (h : Repeats p j) (a : p.Content) :
    p.read j ≠ some a := by
  induction h with
  | here hkey hdup =>
    intro ha
    obtain ⟨entries, rfl⟩ := FilePart.exists_entries ha
    obtain ⟨fs, hfs⟩ := FilePart.exists_fields (List.ne_nil_of_mem hkey) ha
    rw [← record, fields?_record] at hfs
    obtain ⟨f, hf, -⟩ := exists_mem_zip_of_mapM hfs hkey
    exact not_duplicate_of_uniqueField? hf (duplicate_of_some hdup)
  | inside hq hmem _ ih =>
    intro ha
    obtain ⟨entries, rfl⟩ := FilePart.exists_entries ha
    obtain ⟨e, he, heq⟩ := List.mem_map.mp hmem
    cases heq
    obtain ⟨b, hb⟩ := FilePart.exists_read_entry ha he hq
    exact ih b hb
  | inOrder hkey hq hitem _ ih =>
    intro ha
    obtain ⟨fs, hfs⟩ := FilePart.exists_fields (fun hnone => by simp [hnone] at hkey) ha
    obtain ⟨b, hb⟩ := FilePart.exists_read_field ha hfs (mem_zip_of_array hfs hkey hitem) hq
    exact ih b hb

/-! ### Texts -/

namespace Snapshot

/-- What is saved is one of the writings. -/
theorem writtenAs_save (s : Snapshot) : s.WrittenAs s.save :=
  ⟨s.toJson, [], s.save, [], .refl _, Json.gap_nil, s.printed_toJson .spread 0, Json.gap_nil,
    by simp⟩

/-- Every writing of a snapshot is loaded as that snapshot. -/
theorem WrittenAs.load? {s : Snapshot} {t : Text} (h : s.WrittenAs t) (hparsed : s.Parsed) :
    load? (Utf8.encode t) = some s := by
  obtain ⟨j, g, k, g', hrewrites, hg, hwrites, hg', rfl⟩ := h
  have hj : ofJson? j = some s := hrewrites.read (ofJson?_toJson hparsed)
  rw [load?_encode, ofText?, Json.parse?_writes hg hwrites hg', Option.bind_some, hj]

/-- A text that gives a known field twice is refused. -/
theorem load?_givesTwice {t : Text} (h : GivesTwice t) : load? (Utf8.encode t) = none := by
  obtain ⟨j, g, k, g', hrepeats, hg, hwrites, hg', rfl⟩ := h
  have hj : ofJson? j = none := Option.eq_none_iff_forall_ne_some.mpr hrepeats.not_read
  rw [load?_encode, ofText?, Json.parse?_writes hg hwrites hg', Option.bind_some, hj]

/-- A text that goes on behind its value is refused. -/
theorem load?_goesOn {t : Text} (h : GoesOn t) : load? (Utf8.encode t) = none := by
  obtain ⟨j, g, k, g', c, rest, hg, hwrites, hg', hc, rfl⟩ := h
  rw [load?_encode, ofText?, Json.parse?, Json.readValue_gap hg]
  by_cases hj : ∃ digits, j = .number digits
  · -- More digits may follow, but what is read is a number all the same.
    obtain ⟨digits, rfl⟩ := hj
    cases hwrites with
    | number hnumeral =>
      split
      · rename_i hread
        obtain ⟨digits', rfl⟩ := hnumeral.read hread
        split <;> rfl
      · rfl
  · have hread := hwrites.read (g' ++ c :: rest) (2 * (g ++ (k ++ (g' ++ c :: rest))).length + 2)
      (by simp only [List.length_append]; omega) fun digits hd => absurd ⟨digits, hd⟩ hj
    have hrest : Json.skipGap (g' ++ c :: rest) = c :: rest := by
      rw [Json.skipGap_append hg', Json.skipGap_cons hc]
    rw [hread]
    simp only [hrest, reduceCtorEq, if_false, Option.bind_none]

/-- Every text that writes a snapshot, as it is saved or in any other way, is read as that snapshot. A
text that gives a known field of one of its records twice, and a text in which anything but blanks
follows the value, is not read. -/
theorem equivalent_writings :
    (∀ s : Snapshot, s.WrittenAs s.save) ∧
    (∀ (s : Snapshot) (t : Text), s.Parsed → s.WrittenAs t → load? (Utf8.encode t) = some s) ∧
    (∀ t : Text, GivesTwice t → load? (Utf8.encode t) = none) ∧
    (∀ t : Text, GoesOn t → load? (Utf8.encode t) = none) :=
  ⟨writtenAs_save, fun _ _ hparsed h => h.load? hparsed, fun _ => load?_givesTwice,
    fun _ => load?_goesOn⟩

/-- A snapshot with details that say little. -/
def postcard : Snapshot where
  version := some [Char.ofNat 0x1f3ac]
  data := { details := ⟨[("a.b", ⟨none, []⟩), ("f.m", ⟨none, ["x"]⟩)], by decide⟩ }

def postcardText : Text :=
  "\n\x7b\"by\":\"\\ud800\", \"cache\":\x7b\"type_arg_filter\":\x7b" ++
    "\"f.m\":\x7b\"values\":[\"\\u0078\"]\x7d,\"a.b\":\x7b\x7d\x7d\x7d," ++
    "\"version\":\"\\ud83c\\uDFAC\"\x7d"

def postcardJson : Json :=
  record [("by", .string none),
    ("cache", record [("type_arg_filter", record [
      ("f.m", record [("values", Json.texts ["x"])]), ("a.b", record [])])]),
    ("version", Json.text [Char.ofNat 0x1f3ac])]

theorem parse?_postcardText : Json.parse? postcardText = some postcardJson := by
  cbv

theorem rewrites_postcard : Rewrites snapshot postcard.toJson postcardJson := by
  have hempty : Rewrites .detail (record [("type", .null), ("values", Json.texts [])])
      (record []) :=
    (Rewrites.drop (by simp [FilePart.silent])).trans
      (.drop (by simp [FilePart.silent, Json.texts]))
  have huntyped : Rewrites .detail (record [("type", .null), ("values", Json.texts ["x"])])
      (record [("values", Json.texts ["x"])]) := .drop (by simp [FilePart.silent])
  have hfirst := @Rewrites.inside .details _ []
    [("f.m", record [("type", .null), ("values", Json.texts ["x"])])] "a.b" _ _ rfl hempty
  have hsecond := @Rewrites.inside .details _ [("a.b", record [])] [] "f.m" _ _ rfl huntyped
  have hdetails := hfirst.trans
    (hsecond.trans (.shuffle (.inr (.inl rfl)) (by decide) (.swap _ _ [])))
  have hdata := @Rewrites.inside .data _ [] [] "type_arg_filter" _ _ rfl hdetails
  have hcache := @Rewrites.inside snapshot _ [("version", Json.text [Char.ofNat 0x1f3ac])] []
    "cache" _ _ rfl hdata
  refine hcache.trans (.trans (.permute (by decide) (.swap _ _ [])) ?_)
  exact .extend (.string none) (by decide) (by decide)

theorem equivalent_writings_postcard :
    postcard.Parsed ∧ load? (Utf8.encode postcardText) = some postcard ∧
      load? (Utf8.encode "\x7b\"version\":null,\"version\":null\x7d") = none ∧
      load? (Utf8.encode (postcard.save ++ ",")) = none := by
  obtain ⟨hsave, hwritten, htwice, hgoes⟩ := equivalent_writings
  have hparsed : postcard.Parsed := by
    constructor <;> simp [postcard, Table.empty, ArgumentDetail.Parsed]
  obtain ⟨g, k, g', hg, hg', ht, hwrites⟩ := Json.parse?_eq_some_iff.mp parse?_postcardText
  refine ⟨hparsed, hwritten _ _ hparsed ⟨_, g, k, g', rewrites_postcard, hg, hwrites, hg', ht⟩,
    htwice _ ?_, hgoes _ ?_⟩
  · have hparse : Json.parse? "\x7b\"version\":null,\"version\":null\x7d" =
        some (record [("version", .null), ("version", .null)]) := by cbv
    obtain ⟨g, k, g', hg, hg', ht, hwrites⟩ := Json.parse?_eq_some_iff.mp hparse
    have hrepeats := @Repeats.here snapshot [(some "version", .null), (some "version", .null)]
      "version" (by decide) (.cons_mem (by simp))
    exact ⟨_, g, k, g', hrepeats, hg, hwrites, hg', ht⟩
  · obtain ⟨j, g, k, g', -, hg, hwrites, hg', ht⟩ := hsave postcard
    have hcomma : (("," : String) : Text) = [','] := rfl
    refine ⟨j, g, k, g', ',', [], hg, hwrites, hg', rfl, ?_⟩
    rw [ht, hcomma]
    simp

end Snapshot

end FilterLine
