import FilterLine.Proofs.Listing.Lines

/-!
The table of protocols is read back in full. A row holds a group of names for each direction that has
some, and a missing group is told by what stands in its place: behind the name the word of the other
group, or the end of the row. Inside a group the names are kept apart by commas, which none of them
holds, and the group ends at the first closing parenthesis.
-/
namespace FilterLine

open Text

variable {names : List Text} {t r word : Text} {p : Protocol}

namespace Listing

/-! ### Groups -/

/-- A comma in front of a space ends the first name. -/
theorem splitList_append {name : Text} (h : ',' ∉ name) (t : Text) :
    splitList (name ++ ',' :: ' ' :: t) = name :: splitList t := by
  induction name with
  | nil => rfl
  | cons c name ih =>
    have hc := List.ne_of_not_mem_cons h
    rw [List.cons_append, splitList, ih (List.not_mem_of_not_mem_cons h)]
    · rfl
    · rintro _ rfl -
      exact hc rfl

theorem splitList_of_not_mem (h : ',' ∉ t) : splitList t = [t] := by
  induction t with
  | nil => rfl
  | cons c t ih =>
    have hc := List.ne_of_not_mem_cons h
    rw [splitList, ih (List.not_mem_of_not_mem_cons h)]
    · rfl
    · rintro _ rfl -
      exact hc rfl

/-- A list without commas in its names is split where it was joined. -/
theorem splitList_join (h : ∀ name ∈ names, ',' ∉ name) (hne : names ≠ []) :
    splitList (join [',', ' '] names) = names := by
  induction names with
  | nil => exact absurd rfl hne
  | cons name names ih =>
    have hname := h name List.mem_cons_self
    cases names with
    | nil => exact splitList_of_not_mem hname
    | cons next names =>
      rw [join, List.append_assoc, List.cons_append, List.singleton_append, splitList_append hname,
        ih (fun n hn => h n (List.mem_cons_of_mem name hn)) (List.cons_ne_nil next names)]

/-- Whether a text can be told from the other names of a group and from what is behind the group. -/
structure InGroup (name : Text) : Prop where
  ne_nil : name ≠ []
  comma : ',' ∉ name
  parenthesis : ')' ∉ name
  line : '\n' ∉ name

instance (name : Text) : Decidable (InGroup name) :=
  decidable_of_iff (name ≠ [] ∧ ',' ∉ name ∧ ')' ∉ name ∧ '\n' ∉ name)
    ⟨fun ⟨hne, hcomma, hparenthesis, hline⟩ => ⟨hne, hcomma, hparenthesis, hline⟩,
      fun h => ⟨h.ne_nil, h.comma, h.parenthesis, h.line⟩⟩

/-- The names of a group are read back. -/
theorem groupNames_join (h : ∀ name ∈ names, InGroup name) :
    groupNames (join [',', ' '] names) = names := by
  cases names with
  | nil => rfl
  | cons name names =>
    rw [groupNames, if_neg (join_ne_nil (h name List.mem_cons_self).ne_nil names),
      splitList_join (fun n hn => (h n hn).comma) (List.cons_ne_nil name names)]

/-- A group of names as the tool writes it, which is nothing when there are none. -/
def writeGroup (word : Text) (names : List Text) : Text :=
  if names = [] then [] else [' '] ++ word ++ [' ', '('] ++ join [',', ' '] names ++ [')']

/-- A group is read back, and so is a missing one when no group of the same word is behind it. -/
theorem group?_writeGroup (hword : ∃ c rest, word = c :: rest ∧ isBlank c = false)
    (h : ∀ name ∈ names, InGroup name) (hr : group? word r = none) :
    (group? word (writeGroup word names ++ r)).getD ([], writeGroup word names ++ r) =
      (join [',', ' '] names, r) := by
  by_cases hnil : names = []
  · simp [writeGroup, hnil, hr, join]
  · have hinside : ')' ∉ join [',', ' '] names :=
      not_mem_join (by decide) fun name hname => (h name hname).parenthesis
    have hblank : ∀ c ∈ [' '], isBlank c = true := List.forall_mem_singleton.mpr (by decide)
    have hspace : afterBlanks? word (writeGroup word names ++ r) =
        some ([' ', '('] ++ (join [',', ' '] names ++ ')' :: r)) := by
      rw [afterBlanks?_eq_some hword]
      exact ⟨[' '], hblank, by simp [writeGroup, hnil]⟩
    have hopen : afterBlanks? ['('] ([' ', '('] ++ (join [',', ' '] names ++ ')' :: r)) =
        some (join [',', ' '] names ++ ')' :: r) :=
      (afterBlanks?_eq_some ⟨'(', [], rfl, by decide⟩).mpr ⟨[' '], hblank, rfl⟩
    simp only [group?, hspace, hopen, cutFirst?_append hinside, Option.bind_eq_bind,
      Option.bind_some, Option.getD_some]

/-- A group of one word is not taken for that of the other. -/
theorem group?_in_writeGroup_out (names : List Text) :
    group? "in" (writeGroup "out" names) = none := by
  by_cases hnil : names = []
  · rw [writeGroup, if_pos hnil]
    rfl
  · rw [writeGroup, if_neg hnil]
    rfl

end Listing

/-! ### Rows -/

def Protocol.row (p : Protocol) : Text :=
  p.name ++ [':'] ++ Listing.writeGroup "in" p.input ++ Listing.writeGroup "out" p.output

/-- Whether a protocol can be told from its row. -/
structure Protocol.Tabular (p : Protocol) : Prop where
  name : p.name.IsName
  input : ∀ name ∈ p.input, Listing.InGroup name
  output : ∀ name ∈ p.output, Listing.InGroup name

instance (p : Protocol) : Decidable p.Tabular :=
  decidable_of_iff (p.name.IsName ∧ (∀ name ∈ p.input, Listing.InGroup name) ∧
      ∀ name ∈ p.output, Listing.InGroup name)
    ⟨fun ⟨hname, hinput, houtput⟩ => ⟨hname, hinput, houtput⟩,
      fun h => ⟨h.name, h.input, h.output⟩⟩

namespace Listing

/-- A protocol is read back from its row. -/
theorem protocolOfLine?_row (h : p.Tabular) : protocolOfLine? p.row = some p := by
  have hrow : p.row = p.name ++ ':' :: (writeGroup "in" p.input ++ writeGroup "out" p.output) := by
    simp [Protocol.row]
  have hcolon : ∀ c ∈ (':' :: (writeGroup "in" p.input ++ writeGroup "out" p.output)).head?,
      isWord c = false := by
    rintro _ ⟨⟩
    exact isWord_of_lineMark (by decide)
  have hin : ∃ c rest, ("in" : Text) = c :: rest ∧ isBlank c = false := ⟨_, _, rfl, by decide⟩
  have hout : ∃ c rest, ("out" : Text) = c :: rest ∧ isBlank c = false := ⟨_, _, rfl, by decide⟩
  have hend : group? "out" [] = none := rfl
  have hinput := group?_writeGroup hin h.input (group?_in_writeGroup_out p.output)
  have houtput := group?_writeGroup hout h.output hend
  rw [List.append_nil] at houtput
  rw [hrow]
  simp only [protocolOfLine?, word?_append h.name hcolon, Option.bind_eq_bind, Option.bind_some,
    after?, if_true, hinput, houtput, groupNames_join h.input, groupNames_join h.output]

theorem line_not_mem_writeGroup (hword : '\n' ∉ word) (h : ∀ name ∈ names, InGroup name) :
    '\n' ∉ writeGroup word names := by
  rw [writeGroup]
  split
  · exact List.not_mem_nil
  · have hjoin : '\n' ∉ join [',', ' '] names :=
      not_mem_join (by decide) fun name hname => (h name hname).line
    simp [hword, hjoin]

/-- A group ends in its parenthesis, or there is none. -/
theorem getLast?_writeGroup (word : Text) (names : List Text) :
    (writeGroup word names).getLast? = none ∨ (writeGroup word names).getLast? = some ')' := by
  rw [writeGroup]
  split
  · exact .inl rfl
  · exact .inr List.getLast?_concat

/-- A row is one line, and no carriage return ends it. -/
theorem row_line (h : p.Tabular) : p.row ≠ [] ∧ '\n' ∉ p.row ∧ unreturned p.row = p.row := by
  have hword : isWord '\n' = false := isWord_of_lineMark (by decide)
  have hname : '\n' ∉ p.name := AllWord.not_mem h.name.word hword
  have hinput : '\n' ∉ writeGroup "in" p.input := line_not_mem_writeGroup (by decide) h.input
  have houtput : '\n' ∉ writeGroup "out" p.output := line_not_mem_writeGroup (by decide) h.output
  refine ⟨by simp [Protocol.row], ?_, ?_⟩
  · rw [Protocol.row]
    simp only [List.mem_append, List.mem_singleton, not_or]
    exact ⟨⟨⟨hname, by decide⟩, hinput⟩, houtput⟩
  · have hends : endsIn '\r' p.row = false := by
      rw [endsIn, Protocol.row, List.getLast?_append, List.getLast?_append, List.getLast?_concat]
      obtain hlast | hlast := getLast?_writeGroup "out" p.output <;>
        obtain hlast' | hlast' := getLast?_writeGroup "in" p.input <;>
          rw [hlast, hlast'] <;> rfl
    simp [unreturned, hends]

/-! ### Tables -/

variable {header : Text} {rows : List Text}

/-- Only the empty lines around a table are trimmed. -/
theorem trimWhile_table {before after : Text} (hbefore : ∀ c ∈ before, c = '\n')
    (hafter : ∀ c ∈ after, c = '\n') (h : ∀ l ∈ header :: rows, l ≠ [] ∧ '\n' ∉ l) :
    trimWhile (· == '\n') (before ++ join ['\n'] (header :: rows) ++ after) =
      join ['\n'] (header :: rows) := by
  obtain ⟨hne, hheader⟩ := h header List.mem_cons_self
  obtain ⟨init, last, hlines⟩ : ∃ init last, header :: rows = init ++ [last] :=
    ⟨_, _, (List.dropLast_concat_getLast (List.cons_ne_nil header rows)).symm⟩
  obtain ⟨hlast, hlast'⟩ := h last (by simp [hlines])
  have hplain : ∀ {l : Text} {c : Char}, '\n' ∉ l → c ∈ l → (c == '\n') = false := by
    rintro l c hl hc
    rw [beq_eq_false_iff_ne]
    rintro rfl
    exact hl hc
  apply trimWhile_between
  · simpa using hbefore
  · simpa using hafter
  · exact join_ne_nil hne rows
  · rw [head?_join hne]
    exact fun c hc => hplain hheader (List.mem_of_head? hc)
  · rw [hlines, getLast?_join hlast]
    exact fun c hc => hplain hlast' (List.mem_of_getLast? hc)

/-- The lines behind the first are the rows. -/
theorem lines_table (hne : header ≠ []) (hheader : '\n' ∉ header)
    (h : ∀ l ∈ rows, l ≠ [] ∧ '\n' ∉ l ∧ unreturned l = l) :
    (lines (join ['\n'] (header :: rows))).drop 1 = rows := by
  have hsplit : splitAll '\n' (join ['\n'] (header :: rows)) = header :: rows :=
    splitAll_join (List.forall_mem_cons.mpr ⟨hheader, fun l hl => (h l hl).2.1⟩)
      (List.cons_ne_nil header rows)
  rcases List.eq_nil_or_concat rows with rfl | ⟨init, last, rfl⟩
  · have hlast : splitAll '\n' (join ['\n'] [header]) = [] ++ [header] := hsplit
    rw [lines_eq hlast, if_neg hne]
    rfl
  · rw [List.concat_eq_append] at h hsplit ⊢
    rw [← List.cons_append] at hsplit ⊢
    have hinit : init.map unreturned = init := by
      rw [List.map_congr_left fun l hl => (h l (by simp [hl])).2.2, List.map_id']
    rw [lines_eq hsplit, if_neg (h last (by simp)).1, List.map_cons, hinit]
    rfl

/-- A table whose names can be told apart lists what was written, and for each protocol the directions
that have a filter, whatever line breaks stand around it. -/
theorem protocols_read_back (hne : header ≠ []) (hheader : '\n' ∉ header) {ps : List Protocol}
    (hps : ∀ p ∈ ps, p.Tabular) {before after : Text} (hbefore : ∀ c ∈ before, c = '\n')
    (hafter : ∀ c ∈ after, c = '\n') :
    let found : List Protocol :=
      answer .protocols (before ++ join ['\n'] (header :: ps.map Protocol.row) ++ after)
    found = ps ∧ found.map Protocol.canRead = ps.map (fun p => decide (p.input ≠ [])) ∧
      found.map Protocol.canWrite = ps.map (fun p => decide (p.output ≠ [])) := by
  have hrows : ∀ l ∈ ps.map Protocol.row, l ≠ [] ∧ '\n' ∉ l ∧ unreturned l = l := by
    simpa using fun p hp => row_line (hps p hp)
  have htrimmed : ∀ l ∈ header :: ps.map Protocol.row, l ≠ [] ∧ '\n' ∉ l :=
    List.forall_mem_cons.mpr ⟨⟨hne, hheader⟩, fun l hl => ⟨(hrows l hl).1, (hrows l hl).2.1⟩⟩
  have hread : (ps.map Protocol.row).filterMap protocolOfLine? = ps := by
    have heach : ∀ p ∈ ps, (protocolOfLine? ∘ Protocol.row) p = some p :=
      fun p hp => protocolOfLine?_row (hps p hp)
    rw [List.filterMap_map, List.filterMap_congr heach, List.filterMap_some]
  have hfound : answer .protocols (before ++ join ['\n'] (header :: ps.map Protocol.row) ++ after) =
      ps := by
    rw [answer, protocols, trimWhile_table hbefore hafter htrimmed, lines_table hne hheader hrows,
      hread]
  refine ⟨hfound, ?_, ?_⟩
  · rw [hfound]
    exact List.map_congr_left fun p _ => by cases h : p.input <;> simp [Protocol.canRead, h]
  · rw [hfound]
    exact List.map_congr_left fun p _ => by cases h : p.output <;> simp [Protocol.canWrite, h]

/-- Names that hold the words and the openings of groups, or begin in a space. -/
theorem protocols_read_back_http :
    let found : List Protocol := answer .protocols ("\n" ++ join ['\n'] ["Protocols",
      "http: in (httpin,  out (a) out (\r)", "rtp: out (rtpout in (b)", "rtp:"] ++ "\n\n")
    found = [⟨"http", ["httpin", " out (a"], ["\r"]⟩, ⟨"rtp", [], ["rtpout in (b"]⟩, ⟨"rtp", [], []⟩] ∧
      found.map Protocol.canRead = [true, false, false] ∧
      found.map Protocol.canWrite = [true, true, false] :=
  let ps : List Protocol :=
    [⟨"http", ["httpin", " out (a"], ["\r"]⟩, ⟨"rtp", [], ["rtpout in (b"]⟩, ⟨"rtp", [], []⟩]
  have hps : ∀ p ∈ ps, p.Tabular := by decide +kernel
  have hbefore : ∀ c ∈ ("\n" : Text), c = '\n' := by simp
  have hafter : ∀ c ∈ ("\n\n" : Text), c = '\n' := by simp
  have hheader : '\n' ∉ ("Protocols" : Text) := by decide
  protocols_read_back (List.cons_ne_nil _ _) hheader hps hbefore hafter

end Listing
end FilterLine
