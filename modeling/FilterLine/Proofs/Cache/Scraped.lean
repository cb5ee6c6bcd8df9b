import FilterLine.Program.Help
import FilterLine.Proofs.Cache.Reference
import FilterLine.Proofs.Completion.Spelling
import FilterLine.Proofs.Line.Cut
import FilterLine.Proofs.Listing.Names

/-!
What sessions over programs remember. Whatever the programs print, and however their output changes
from one query to the next, the names in a snapshot are those that were found in some output or follow
from such names, in this session or in an earlier one that has left its snapshot in a file. So they hold
no separator: a clause that is put together from them is taken apart into the same names, and the key
of a detail tells its filter and its argument.
-/
namespace FilterLine

/-- The tool that a program is when its output may change after each query. -/
def Program.varying (programs : List Query → Runner) (binary : Text) : Tool :=
  fun past => Program.tool (programs past) binary past

/-- The snapshots that sessions over programs leave: those without data, and what is remembered, or
has been offered for keeping, by a session that has started without data or from such a snapshot. -/
inductive Snapshot.LeftBehind : Snapshot → Prop where
  | blank (v : Option Text) : LeftBehind { version := v }
  | session {programs : List Query → Runner} {binary : Text} {o : Origin} {s : Session}
      {snapshot : Snapshot} (calls : List Lookup) :
      o.start (Program.varying programs binary) = some s →
      (∀ held, o.held = some held → LeftBehind held) →
      (snapshot = (Lookup.runAll (Program.varying programs binary) calls s).cache.snapshot ∨
        .offered snapshot ∈ (Lookup.runAll (Program.varying programs binary) calls s).journal) →
      LeftBehind snapshot

theorem Snapshot.LeftBehind.remembered {programs : List Query → Runner} {binary : Text} {o : Origin}
    {s : Session} (calls : List Lookup) (hstart : o.start (Program.varying programs binary) = some s)
    (hheld : ∀ held, o.held = some held → held.LeftBehind) :
    (Lookup.runAll (Program.varying programs binary) calls s).cache.snapshot.LeftBehind :=
  .session calls hstart hheld (.inl rfl)

/-- The names that data holds, those of modules apart. -/
inductive SchemaData.Mentions (d : SchemaData) : Text → Prop where
  | filter {l : List Text} {f : Text} : d.filters = some l → f ∈ l → d.Mentions f
  | argument {f : Text} {specs : List ArgumentSpec} {spec : ArgumentSpec} :
      d.args.get? f = some specs → spec ∈ specs → d.Mentions spec.name
  | value {key v : Text} {detail : ArgumentDetail} :
      d.details.get? key = some detail → v ∈ detail.values → d.Mentions v
  | literal {f : Text} {found : List EnumShorthand} {s : EnumShorthand} :
      d.shorthands.get? f = some found → s ∈ found → d.Mentions s.literal
  | property {l : List Text} {p : Text} : d.props = some l → p ∈ l → d.Mentions p
  | protocol {l : List Protocol} {p : Protocol} :
      d.protocols = some l → p ∈ l → d.Mentions p.name

/-! ### Answers of programs -/

/-- Whether all that a tool answers could have been found in some output. -/
structure Tool.Scraped (tool : Tool) : Prop where
  spelled : tool.Spelled Text.IsName Text.IsName
  protocols : ∀ past l, tool past .protocols = .ok l → ∀ p ∈ l, p.name.IsName
  enums : ∀ past f a detail, tool past (.argument f a) = .ok detail → detail.values ≠ [] →
    detail.kind = some .enum

/-- Every answer of a program was found in some output. -/
theorem Program.exists_answer {programs : List Query → Runner} {binary : Text} {past : List Query}
    {q : Query} {a : q.Answer} (h : Program.varying programs binary past q = .ok a) :
    ∃ t, a = Listing.answer q t := by
  change (run (programs past) binary q).map (Listing.answer q) = .ok a at h
  cases hrun : run (programs past) binary q with
  | error e =>
    rw [hrun] at h
    cases h
  | ok t =>
    rw [hrun] at h
    cases h
    exact ⟨t, rfl⟩

/-- Whatever a program prints, what it answers has been scraped. -/
theorem Program.scraped (programs : List Query → Runner) (binary : Text) :
    (Program.varying programs binary).Scraped where
  spelled past q a h := by
    obtain ⟨t, rfl⟩ := exists_answer h
    cases q with
    | filters => exact fun _ hn => Listing.Mark.isName_of_mem_filter hn
    | props => exact fun _ hn => Listing.Mark.isName_of_mem_property hn
    | filterArgs f => exact fun _ hspec => Listing.isName_of_mem_arguments hspec
    | argument f a => exact fun _ hv => Listing.isName_of_mem_argumentDetail hv
    | version | modules | protocols => trivial
  protocols past l h := by
    obtain ⟨t, rfl⟩ := exists_answer h
    exact fun _ hp => Listing.isName_of_mem_protocols hp
  enums past f a detail h := by
    obtain ⟨t, rfl⟩ := exists_answer h
    exact Listing.enum_of_argumentDetail

/-! ### What steps keep -/

namespace SchemaData

/-- Whether all names in the data are names, and only enumerations list literals. -/
structure Scraped (d : SchemaData) : Prop where
  spelled : FilterLine.Spelled Text.IsName Text.IsName d.known
  protocols : ∀ p ∈ d.known .protocols, p.name.IsName
  values : ∀ key detail, d.details.get? key = some detail → ∀ v ∈ detail.values, v.IsName
  enums : ∀ key detail, d.details.get? key = some detail → detail.values ≠ [] →
    detail.kind = some .enum

variable {d : SchemaData} {t : Text}

theorem scraped_empty : ({} : SchemaData).Scraped :=
  ⟨spelled_empty, by simp [answer], by simp [Table.get?_empty], by simp [Table.get?_empty]⟩

/-- All that scraped data mentions are names. -/
theorem Scraped.isName (h : d.Scraped) (ht : d.Mentions t) : t.IsName := by
  cases ht with
  | filter hl hf => exact h.spelled.filters _ (by simpa [answer, hl] using hf)
  | @argument f _ _ hspecs hspec =>
    exact h.spelled.args f _ (by simpa [answer, hspecs] using hspec)
  | value hdetail hv => exact h.values _ _ hdetail _ hv
  | @literal f _ _ hfound hs =>
    exact h.spelled.shorthands f _ (by simpa [answer, hfound] using hs)
  | property hl hp => exact h.spelled.props _ (by simpa [answer, hl] using hp)
  | protocol hl hp => exact h.protocols _ (by simpa [answer, hl] using hp)

/-- A detail that is put in has literals that are names, and has none unless it is an enumeration. -/
theorem Scraped.learn_argument (h : d.Scraped) {f a : Text} {detail : ArgumentDetail}
    (hvalues : ∀ v ∈ detail.values, v.IsName)
    (henum : detail.values ≠ [] → detail.kind = some .enum) :
    ((Query.argument f a).learn detail d).Scraped where
  spelled := spelled_learn h.spelled hvalues
  protocols := h.protocols
  values key detail' hget := by
    rcases mem_get?_insert hget with ⟨-, rfl⟩ | hget
    · exact hvalues
    · exact h.values key detail' hget
  enums key detail' hget := by
    rcases mem_get?_insert hget with ⟨-, rfl⟩ | hget
    · exact henum
    · exact h.enums key detail' hget

end SchemaData

variable {tool : Tool} {may : Query → Prop} {s s' : Session}

/-- Data stays scraped when it learns an answer that is. -/
theorem SchemaData.Scraped.learn {d : SchemaData} (h : d.Scraped) (htool : tool.Scraped)
    {past : List Query} {q : Query} {a : q.Answer} (ha : tool past q = .ok a) :
    (q.learn a d).Scraped := by
  have hspelled := spelled_learn h.spelled (htool.spelled past q a ha)
  cases q with
  | argument f x => exact h.learn_argument (htool.spelled _ _ _ ha) (htool.enums _ _ _ _ ha)
  | protocols => exact ⟨hspelled, htool.protocols _ _ ha, h.values, h.enums⟩
  | _ => exact ⟨hspelled, h.protocols, h.values, h.enums⟩

/-- A step leaves the data of scraped names. -/
theorem Gain.scraped (htool : tool.Scraped) (h : Gain tool may s s') (hs : s.data.Scraped) :
    s'.data.Scraped := by
  cases h with
  | told _ _ => exact hs
  | reset _ _ => exact SchemaData.scraped_empty
  | learned _ _ _ ha => exact hs.learn htool ha
  | declared _ _ _ _ _ _ =>
    exact hs.learn_argument (fun v hv => absurd hv List.not_mem_nil) fun hne => absurd rfl hne
  | derived _ _ _ _ _ =>
    exact ⟨SchemaData.spelled_derive hs.spelled _ _, hs.protocols, hs.values, hs.enums⟩

namespace Session

theorem mem_stored {store : SchemaData → SchemaData} {snapshot : Snapshot} :
    .offered snapshot ∈ (s.stored store).journal ↔
      .offered snapshot ∈ s.journal ∨ snapshot = (s.stored store).cache.snapshot := by
  simp [stored]

/-- A snapshot that a move offers is the one that is then remembered. -/
theorem offered_move (h : Move tool may s s') {snapshot : Snapshot}
    (hmem : .offered snapshot ∈ s'.journal) :
    .offered snapshot ∈ s.journal ∨ snapshot = s'.cache.snapshot := by
  cases h with
  | refused h =>
    cases h
    exact .inl (mem_noted.mp hmem)
  | gain h =>
    cases h with
    | told _ _ => exact .inl (mem_noted.mp hmem)
    | reset _ _ => exact .inl (mem_reset.mp hmem)
    | learned _ _ _ _ => exact (mem_stored.mp hmem).imp_left mem_noted.mp
    | declared _ _ _ _ _ _ => exact mem_stored.mp hmem
    | derived _ _ _ _ _ => exact mem_stored.mp hmem

/-- So a property of the data that steps keep is one of all snapshots that were offered. -/
theorem Keeps.gain {P : Snapshot → Prop} (h : s.Keeps P) (hmove : Move tool may s s')
    (hgain : Gain tool may s s' → P s'.cache.snapshot) : s'.Keeps P := by
  have hsnapshot : P s'.cache.snapshot := by
    cases hmove with
    | gain hstep => exact hgain hstep
    | refused hrefused =>
      cases hrefused
      exact h.snapshot
  refine ⟨hsnapshot, fun snapshot hmem => ?_⟩
  rcases offered_move hmove hmem with hmem | rfl
  · exact h.offered snapshot hmem
  · exact hsnapshot

/-- A session starts with scraped data if its file keeps nothing else. -/
theorem keeps_scraped_start {o : Origin} (h : o.start tool = some s)
    (hheld : ∀ held, o.held = some held → held.data.Scraped) :
    s.Keeps fun snapshot => snapshot.data.Scraped := by
  cases Origin.started_of_start h with
  | new _ => exact Origin.keeps_new SchemaData.scraped_empty
  | taken hsome => exact Origin.keeps_taken (hheld _ hsome)
  | blank _ _ => exact Origin.keeps_blank SchemaData.scraped_empty

/-- Accessors remember and offer scraped data only. -/
theorem keeps_scraped_runAll (htool : tool.Scraped) (calls : List Lookup)
    (h : s.Keeps fun snapshot => snapshot.data.Scraped) :
    (Lookup.runAll tool calls s).Keeps fun snapshot => snapshot.data.Scraped :=
  (Lookup.moves_runAll calls s).preserve
    (fun _ _ hkeeps hmove => hkeeps.gain hmove fun hgain => hgain.scraped htool hkeeps.snapshot) h

end Session

/-- What sessions over programs leave has names only, through any number of sessions. -/
theorem Snapshot.LeftBehind.scraped {snapshot : Snapshot} (h : snapshot.LeftBehind) :
    snapshot.data.Scraped := by
  induction h with
  | blank v => exact SchemaData.scraped_empty
  | @session programs binary _ _ _ calls hstart _ hleft ih =>
    have hkeeps := Session.keeps_scraped_runAll (Program.scraped programs binary) calls
      (Session.keeps_scraped_start hstart ih)
    rcases hleft with rfl | hmem
    · exact hkeeps.snapshot
    · exact hkeeps.offered _ hmem

/-! ### Names and separators -/

open Line

/-- A bare separator behind a piece ends the piece. -/
theorem Line.splitBare_cons {separates : Char → Bool} (h : Separator separates) {t : Text}
    (ht : Uncut separates {} t) (houtside : Place.after {} t = {}) {c : Char}
    (hc : separates c = true) (u : Text) :
    splitBare separates (t ++ c :: u) = t :: splitBare separates u := by
  have hcuts : cuts separates (c, {}) = true := by simp [cuts, Place.bare, hc]
  rw [splitBare_eq h, splitBare_eq h, scan_append, houtside, scan, (h.step_of_cuts hcuts).2,
    List.splitOnP_append_cons _ _ hcuts, List.splitOnP_eq_singleton ht, List.singleton_append,
    List.map_cons, letters_scan]

namespace Text.SeparatorFree

variable {t f a v : Text}

theorem not_mem (h : t.SeparatorFree) {c : Char} (hc : c ∈ separators) : c ∉ t :=
  fun hmem => h.separator c hmem hc

/-- A clause of names is cut where the names end. -/
theorem segments_clause (hf : f.SeparatorFree) (ha : a.SeparatorFree) (hv : v.SeparatorFree) :
    segments (f ++ ':' :: (a ++ '=' :: v)) = [f, a ++ '=' :: v] := by
  have huncut : ∀ t : Text, ':' ∉ t → Uncut (· == ':') {} t := by
    intro t ht
    exact uncut_of_forall (fun c hc => by
      have hne : c ≠ ':' := fun heq => ht (heq ▸ hc)
      simpa using hne) _
  have hoption : ':' ∉ a ++ '=' :: v := by
    simp [ha.not_mem (c := ':') (by decide), hv.not_mem (c := ':') (by decide)]
  have houtside : Place.after {} f = {} :=
    after_plain (hf.not_mem (by decide)) (hf.not_mem (by decide)) false
  rw [segments, splitBare_cons separator_colon (huncut f (hf.not_mem (by decide))) houtside
    (by decide), splitBare_of_uncut separator_colon (huncut _ hoption)]

/-- The name of an assignment is what it assigns to. -/
theorem optionName_assignment (ha : a.SeparatorFree) (v : Text) :
    Clause.optionName (a ++ '=' :: v) = a :=
  Clause.optionName_eq (ha.not_mem (by decide)) (.inr ⟨v, rfl⟩)

end Text.SeparatorFree

/-- Whatever programs print, all names that sessions over them remember or offer are without blanks
and separators, and only enumerations list literals. Clauses put together from such names are taken
apart into the same names, and the key of a detail tells its filter and its argument. -/
theorem names_separate {snapshot : Snapshot} (h : snapshot.LeftBehind) :
    let d := snapshot.data
    (∀ t, d.Mentions t → t.SeparatorFree) ∧
    (∀ key detail, d.details.get? key = some detail → detail.values ≠ [] →
      detail.kind = some .enum) ∧
    (∀ f a v, d.Mentions f → d.Mentions a → d.Mentions v →
      segments (f ++ ':' :: (a ++ '=' :: v)) = [f, a ++ '=' :: v] ∧
        Clause.optionName (a ++ '=' :: v) = a) ∧
    ∀ f a f' a', d.Mentions f → d.Mentions f' → detailKey f a = detailKey f' a' →
      f = f' ∧ a = a' := by
  intro d
  have hscraped : d.Scraped := h.scraped
  have hfree : ∀ t, d.Mentions t → t.SeparatorFree := fun t ht =>
    (hscraped.isName ht).separatorFree
  refine ⟨hfree, hscraped.enums, fun f a v hf ha hv => ?_, fun f a f' a' hf hf' hkey => ?_⟩
  · exact ⟨(hfree f hf).segments_clause (hfree a ha) (hfree v hv),
      (hfree a ha).optionName_assignment v⟩
  · exact detailKey_inj ((hfree f hf).not_mem (by decide)) ((hfree f' hf').not_mem (by decide)) hkey

/-- A program that marks an empty name and one with a separator, and declares an argument that is none;
its filter has one argument, an enumeration. -/
def Program.colourful : List Query → Runner := fun _ _ arguments =>
  let text : Text :=
    if arguments = ["-h", "filters"] then
      "\x1b[32ma.b:\x1b[0m \x1b[32mf:\x1b[0m \x1b[32m:\x1b[0m"
    else if arguments = ["-h", "f.*", "-logs=ncl"] then "mode (enum, default: raw)\na=b (str)"
    else if arguments = ["-h", "f.mode"] then
      "\x1b[32mmode\x1b[0m (enum)\n\x1b[33mraw\x1b[0m: \x1b[33ma:b\x1b[0m:"
    else if arguments = ["-h", "props"] then "\x1b[32mBitrate\x1b[0m \x1b[32m#ID\x1b[0m"
    else "version 2"
  .ok { out := Utf8.encode text, status := some 0 }

def Snapshot.colourful : Snapshot where
  version := some "2"
  data := {
    filters := some ["f"]
    args := ⟨[("f", [⟨"mode", .enum⟩])], List.pairwise_singleton _ _⟩
    details := ⟨[("f.mode", ⟨some .enum, ["raw"]⟩)], List.pairwise_singleton _ _⟩
    shorthands := ⟨[("f", [⟨"raw", "mode"⟩])], List.pairwise_singleton _ _⟩ }

theorem Snapshot.left_colourful : Snapshot.colourful.LeftBehind := by
  have hsnapshot : (Lookup.runAll (Program.varying Program.colourful "gpac")
      [.filters, .shorthands "f"] {}).cache.snapshot = .colourful := by decide +kernel
  have hstart : Origin.memory.start (Program.varying Program.colourful "gpac") = some {} := rfl
  have hleft := LeftBehind.remembered [.filters, .shorthands "f"] hstart fun _ h => nomatch h
  rw [hsnapshot] at hleft
  exact hleft

/-- A second session reads what the first has written. -/
theorem Snapshot.start_colourful (tool : Tool) : ∃ o : Origin, o.held = some .colourful ∧
    o.start tool = some (Origin.taken .colourful) := by
  have henum : ArgType.enum.Parsed := ⟨"enum", by decide⟩
  have hparsed : Snapshot.colourful.Parsed := by
    constructor <;> simp [Snapshot.colourful, ArgumentDetail.Parsed, henum]
  have hload := Snapshot.load?_save hparsed
  refine ⟨.file (some (Utf8.encode Snapshot.colourful.save)), ?_, ?_⟩
  · rw [Origin.held_file, hload]
  · rw [Origin.start, Option.bind_some, hload]
    rfl

theorem names_separate_colourful :
    let d := (Lookup.runAll (Program.varying Program.colourful "gpac") [.props]
      (Origin.taken .colourful)).data
    d.props = some [("Bitrate" : Text)] ∧ d.details.get? "f.mode" = some ⟨some .enum, ["raw"]⟩ ∧
      (∀ t, d.Mentions t → t.SeparatorFree) ∧
      segments ("f:mode=raw" : Text) = [("f" : Text), ("mode=raw" : Text)] ∧
      Clause.optionName ("mode=raw" : Text) = ("mode" : Text) := by
  intro d
  obtain ⟨o, hheld, hstart⟩ :=
    Snapshot.start_colourful (Program.varying Program.colourful "gpac")
  have hleft := Snapshot.LeftBehind.remembered [.props] hstart fun held h => by
    cases hheld.symm.trans h
    exact Snapshot.left_colourful
  obtain ⟨hfree, -, hclause, -⟩ := names_separate hleft
  have hfilters : d.filters = some [("f" : Text)] := by decide +kernel
  have hargs : d.args.get? "f" = some [⟨"mode", .enum⟩] := by decide +kernel
  have hdetail : d.details.get? "f.mode" = some ⟨some .enum, ["raw"]⟩ := by decide +kernel
  have hprops : d.props = some [("Bitrate" : Text)] := by decide +kernel
  have hmentions : d.Mentions "f" ∧ d.Mentions "mode" ∧ d.Mentions "raw" :=
    ⟨.filter hfilters (List.mem_singleton_self _), .argument hargs (List.mem_singleton_self _),
      .value hdetail (List.mem_singleton_self _)⟩
  obtain ⟨hsegments, hname⟩ := hclause _ _ _ hmentions.1 hmentions.2.1 hmentions.2.2
  exact ⟨hprops, hdetail, hfree, hsegments, hname⟩

end FilterLine
