import FilterLine.Proofs.Listing.Lines

/-!
The list of the arguments of a filter is read back in full. A line that is indented, dashed or empty
begins with no name, so it declares nothing whatever it looks like further on; and what a line declares
does not change when blanks or a carriage return are cut off its end. So neither the trimming of the
text nor its cutting into lines loses or adds a declaration.
-/
namespace FilterLine.Listing

open Text

variable {t l : Text} {c : Char}

/-! ### One line -/

theorem word?_of_head (h : ∀ c ∈ l.head?, isWord c = false) : word? l = none := by
  cases l with
  | nil => rfl
  | cons c l =>
    have hc : ¬ isWord c = true := by simp [h c rfl]
    simp [word?, List.takeWhile_cons_of_neg hc]

/-- A line that begins with no word declares nothing. -/
theorem argumentOfLine?_of_head (h : ∀ c ∈ l.head?, isWord c = false) :
    argumentOfLine? l = none := by
  simp [argumentOfLine?, word?_of_head h]

/-- A line that is no header declares nothing. -/
theorem argumentOfLine?_of_not_header (h : isHeader l = false) : argumentOfLine? l = none := by
  apply argumentOfLine?_of_head
  intro c hc
  cases l with
  | nil => cases hc
  | cons d l =>
    cases hc
    apply isWord_of_lineMark
    simp only [isHeader, Bool.and_eq_false_iff, bne_eq_false_iff_eq] at h
    obtain (rfl | rfl) | rfl := h <;> decide

/-- A character that is no word character does not change the word in front. -/
theorem word?_concat (hc : isWord c = false) (t : Text) :
    word? (t ++ [c]) = (word? t).map fun p => (p.1, p.2 ++ [c]) := by
  have hrest : ∀ d ∈ (t.dropWhile isWord ++ [c]).head?, isWord d = false := by
    have hhead := List.head?_dropWhile_not isWord t
    cases hdrop : t.dropWhile isWord with
    | nil => simpa using hc
    | cons d rest =>
      rw [hdrop] at hhead
      simpa using hhead
  have hsplit : t ++ [c] = t.takeWhile isWord ++ (t.dropWhile isWord ++ [c]) := by
    rw [← List.append_assoc, List.takeWhile_append_dropWhile]
  obtain ⟨htake, hdrop⟩ := run_append (fun d hd => List.mem_takeWhile_imp hd) hrest
  rw [word?, hsplit, htake, hdrop, word?]
  split <;> rfl

theorem afterBlanks?_concat (hc : c ≠ '(') (t : Text) :
    afterBlanks? ['('] (t ++ [c]) = (afterBlanks? ['('] t).map (· ++ [c]) := by
  induction t with
  | nil =>
    by_cases hblank : isBlank c = true
    · simp [afterBlanks?, hblank, after?]
    · simp [afterBlanks?, hblank, after?, Ne.symm hc]
  | cons d t ih =>
    by_cases hblank : isBlank d = true
    · simpa [afterBlanks?, List.dropWhile_cons_of_pos hblank] using ih
    · by_cases hd : '(' = d <;> simp [afterBlanks?, hblank, after?, hd]

/-- What stands at the end of a line and in no declaration can be left out. -/
theorem argumentOfLine?_concat (hc : isWord c = false) (hparenthesis : c ≠ '(') (l : Text) :
    argumentOfLine? (l ++ [c]) = argumentOfLine? l := by
  simp only [argumentOfLine?, word?_concat hc, Option.bind_eq_bind]
  cases word? l with
  | none => rfl
  | some p =>
    simp only [Option.map_some, Option.bind_some, afterBlanks?_concat hparenthesis]
    cases afterBlanks? ['('] p.2 with
    | none => rfl
    | some r =>
      simp only [Option.map_some, Option.bind_some, word?_concat hc]
      cases word? r <;> rfl

/-- A carriage return at its end does not change what a line declares. -/
theorem argumentOfLine?_unreturned (l : Text) :
    argumentOfLine? (unreturned l) = argumentOfLine? l := by
  rw [unreturned]
  split
  · rename_i hends
    obtain ⟨front, rfl⟩ := List.getLast?_eq_some_iff.mp (eq_of_beq hends)
    rw [List.dropLast_concat,
      argumentOfLine?_concat (isWord_of_lineMark (by decide)) (by decide)]
  · rfl

/-! ### All lines -/

def declared (t : Text) : List ArgumentSpec := (splitAll '\n' t).filterMap argumentOfLine?

/-- What the headers among the lines declare is what all lines declare. -/
theorem declared_lines (t : Text) :
    ((lines t).filter isHeader).filterMap argumentOfLine? = declared t := by
  obtain ⟨init, last, hsplit⟩ : ∃ init last, splitAll '\n' t = init ++ [last] :=
    ⟨_, _, (List.dropLast_concat_getLast (splitAll_ne_nil '\n' t)).symm⟩
  have hheader : ∀ l, (if isHeader l = true then argumentOfLine? l else none) =
      argumentOfLine? l := by
    intro l
    split
    · rfl
    · rename_i h
      exact (argumentOfLine?_of_not_header (by simpa using h)).symm
  rw [List.filterMap_filter, lines_eq hsplit, declared, hsplit]
  simp only [hheader, List.filterMap_append, List.filterMap_map, Function.comp_def,
    argumentOfLine?_unreturned]
  congr 1
  split
  · rename_i hlast
    rw [hlast]
    rfl
  · rfl

/-- Lines that are joined declare what each of them does. -/
theorem declared_join {ls : List Text} (h : ∀ l ∈ ls, '\n' ∉ l) :
    declared (join ['\n'] ls) = ls.filterMap argumentOfLine? := by
  by_cases hnil : ls = []
  · rw [hnil]
    rfl
  · rw [declared, splitAll_join h hnil]

theorem splitAll_concat {d : Char} (hd : d ≠ c) (t : Text) :
    ∃ init last, splitAll c t = init ++ [last] ∧ splitAll c (t ++ [d]) = init ++ [last ++ [d]] := by
  induction t with
  | nil => exact ⟨[], [], rfl, by simp [splitAll, hd, consFirst]⟩
  | cons e t ih =>
    obtain ⟨init, last, ht, htd⟩ := ih
    rw [List.cons_append, splitAll, splitAll, ht, htd]
    by_cases he : e = c
    · exact ⟨[] :: init, last, by simp [he], by simp [he]⟩
    · rw [if_neg he, if_neg he]
      cases init with
      | nil => exact ⟨[], e :: last, rfl, rfl⟩
      | cons p init => exact ⟨(e :: p) :: init, last, rfl, rfl⟩

/-- The characters that are trimmed from a listing. -/
def isTrimmed (c : Char) : Bool := c == '\n' || c == ' '

/-- What is trimmed from the end of a text declares nothing. -/
theorem declared_concat (hc : isTrimmed c = true) (t : Text) :
    declared (t ++ [c]) = declared t := by
  simp only [isTrimmed, Bool.or_eq_true, beq_iff_eq] at hc
  obtain rfl | rfl := hc
  · rw [declared, splitAll_append_cons_self, List.filterMap_append]
    exact List.append_nil _
  · obtain ⟨init, last, ht, htd⟩ := splitAll_concat (c := '\n') (d := ' ') (by decide) t
    have hlast := argumentOfLine?_concat (c := ' ') (isWord_of_lineMark (by decide)) (by decide) last
    rw [declared, declared, ht, htd, List.filterMap_append, List.filterMap_append]
    simp only [List.filterMap_cons, hlast, List.filterMap_nil]

/-- However much is trimmed from the end of a text, it declares nothing. -/
theorem declared_append {blanks : Text} (hblanks : ∀ c ∈ blanks, isTrimmed c = true) (t : Text) :
    declared (t ++ blanks) = declared t := by
  induction blanks generalizing t with
  | nil => rw [List.append_nil]
  | cons c blanks ih =>
    rw [List.append_cons, ih (fun d hd => hblanks d (List.mem_cons_of_mem c hd)),
      declared_concat (hblanks c List.mem_cons_self)]

/-- A text is what is left when its end is trimmed, and what is cut. -/
theorem exists_trimmed (p : Char → Bool) (t : Text) :
    ∃ cut, (∀ c ∈ cut, p c = true) ∧ t = trimEndWhile p t ++ cut := by
  refine ⟨(t.reverse.takeWhile p).reverse, fun c hc => ?_, ?_⟩
  · exact List.mem_takeWhile_imp (List.mem_reverse.mp hc)
  · rw [trimEndWhile, ← List.reverse_append, List.takeWhile_append_dropWhile, List.reverse_reverse]

/-- Blanks around a listing that begins with a header do not matter. -/
theorem arguments_between {before body after : Text} (hbefore : ∀ c ∈ before, isTrimmed c = true)
    (hbody : ∀ c ∈ body.head?, isTrimmed c = false) (hafter : ∀ c ∈ after, isTrimmed c = true) :
    arguments (before ++ body ++ after) = declared body := by
  have hfront : declared ((before ++ body ++ after).dropWhile isTrimmed) = declared body ∧
      trimWhile isTrimmed (before ++ body ++ after) =
        trimEndWhile isTrimmed ((before ++ body ++ after).dropWhile isTrimmed) := by
    refine ⟨?_, rfl⟩
    rw [List.append_assoc, List.dropWhile_append_of_pos hbefore]
    cases body with
    | nil => rw [List.nil_append, List.dropWhile_eq_nil_iff.mpr hafter]
    | cons c body =>
      have hc : ¬ isTrimmed c = true := by simp [hbody c rfl]
      rw [List.cons_append, List.dropWhile_cons_of_neg hc, ← List.cons_append,
        declared_append hafter]
  obtain ⟨hdeclared, htrim⟩ := hfront
  obtain ⟨cut, hcut, hsplit⟩ :=
    exists_trimmed isTrimmed ((before ++ body ++ after).dropWhile isTrimmed)
  have harguments : arguments (before ++ body ++ after) =
      declared (trimWhile isTrimmed (before ++ body ++ after)) := declared_lines _
  rw [harguments, htrim, ← declared_append hcut, ← hsplit, hdeclared]

/-! ### Written listings -/

/-- A declaration as the tool writes it: the name and the tag of the type, what else stands in the
same line, and the lines below. -/
structure Declaration where
  name : Text
  tag : Text
  rest : Text
  below : List Text

def Declaration.spec (d : Declaration) : ArgumentSpec := ⟨d.name, .ofTag d.tag⟩

def Declaration.lines (d : Declaration) : List Text :=
  (d.name ++ [' ', '('] ++ d.tag ++ d.rest) :: d.below

/-- Whether a declaration is written so that it can be told from what describes it. -/
structure Declaration.WellFormed (d : Declaration) : Prop where
  name : d.name.IsName
  tag : d.tag.IsName
  rest : ∀ c ∈ d.rest.head?, c = ',' ∨ c = ')'
  line : '\n' ∉ d.rest
  below : ∀ l ∈ d.below, '\n' ∉ l ∧ ∀ c ∈ l.head?, c = ' ' ∨ c = '-' ∨ c = '\t'

variable {d : Declaration}

/-- The first line of a declaration declares its argument. -/
theorem Declaration.WellFormed.argumentOfLine? (h : d.WellFormed) :
    argumentOfLine? (d.name ++ [' ', '('] ++ d.tag ++ d.rest) = some d.spec := by
  have hrest : ∀ c ∈ d.rest.head?, isWord c = false := by
    intro c hc
    apply isWord_of_lineMark
    obtain rfl | rfl := h.rest c hc <;> decide
  have hblank : ∀ c ∈ ([' ', '('] ++ (d.tag ++ d.rest)).head?, isWord c = false := by
    intro c hc
    cases hc
    exact isWord_of_lineMark (by decide)
  have hparenthesis : afterBlanks? ['('] ([' ', '('] ++ (d.tag ++ d.rest)) = some (d.tag ++ d.rest) :=
    (afterBlanks?_eq_some ⟨'(', [], rfl, by decide⟩).mpr
      ⟨[' '], List.forall_mem_singleton.mpr (by decide), rfl⟩
  rw [List.append_assoc, List.append_assoc]
  simp only [Listing.argumentOfLine?, word?_append h.name hblank, Option.bind_eq_bind,
    Option.bind_some, hparenthesis, word?_append h.tag hrest]
  rfl

/-- The lines below declare nothing. -/
theorem Declaration.WellFormed.declared (h : d.WellFormed) :
    d.lines.filterMap Listing.argumentOfLine? = [d.spec] := by
  have hbelow : d.below.filterMap Listing.argumentOfLine? = [] := by
    rw [List.filterMap_eq_nil_iff]
    intro l hl
    apply argumentOfLine?_of_head
    intro c hc
    apply isWord_of_lineMark
    obtain rfl | rfl | rfl := (h.below l hl).2 c hc <;> decide
  rw [lines, List.filterMap_cons_some h.argumentOfLine?, hbelow]

theorem Declaration.WellFormed.not_mem (h : d.WellFormed) : ∀ l ∈ d.lines, '\n' ∉ l := by
  have hword : isWord '\n' = false := isWord_of_lineMark (by decide)
  have hname : '\n' ∉ d.name := AllWord.not_mem h.name.word hword
  have htag : '\n' ∉ d.tag := AllWord.not_mem h.tag.word hword
  intro l hl
  rcases List.mem_cons.mp hl with rfl | hl
  · simp [hname, htag, h.line]
  · exact (h.below l hl).1

/-- A written listing begins with a name. -/
theorem Declaration.WellFormed.head_join (h : d.WellFormed) (ls : List Text) :
    ∀ c ∈ (join ['\n'] (d.lines ++ ls)).head?, isTrimmed c = false := by
  have hfirst : (join ['\n'] (d.lines ++ ls)).head? = d.name.head? := by
    have hne : d.name ++ [' ', '('] ++ d.tag ++ d.rest ≠ [] := by simp
    rw [lines, List.cons_append, head?_join hne]
    simp only [List.append_assoc, List.head?_append_of_ne_nil _ h.name.ne_nil]
  intro c hc
  rw [hfirst] at hc
  have hword := h.name.word c (List.mem_of_head? hc)
  rw [Bool.eq_false_iff]
  intro htrimmed
  simp only [isTrimmed, Bool.or_eq_true, beq_iff_eq] at htrimmed
  rw [isWord_of_lineMark (by obtain rfl | rfl := htrimmed <;> decide)] at hword
  cases hword

/-- A listing that is well formed declares what was written, whatever blanks stand around it. -/
theorem arguments_read_back {ds : List Declaration} (hds : ∀ d ∈ ds, d.WellFormed)
    {before after : Text} (hbefore : ∀ c ∈ before, c = '\n' ∨ c = ' ')
    (hafter : ∀ c ∈ after, c = '\n' ∨ c = ' ') (filter : Text) :
    answer (.filterArgs filter) (before ++ join ['\n'] (ds.flatMap Declaration.lines) ++ after) =
      ds.map fun d => ⟨d.name, .ofTag d.tag⟩ := by
  have hlines : ∀ l ∈ ds.flatMap Declaration.lines, '\n' ∉ l := by
    intro l hl
    obtain ⟨d, hd, hl⟩ := List.mem_flatMap.mp hl
    exact (hds d hd).not_mem l hl
  have hhead : ∀ c ∈ (join ['\n'] (ds.flatMap Declaration.lines)).head?, isTrimmed c = false := by
    cases ds with
    | nil => simp [join]
    | cons d ds => exact (hds d List.mem_cons_self).head_join _
  have hdeclared : (ds.flatMap Declaration.lines).filterMap argumentOfLine? =
      ds.map Declaration.spec := by
    clear hlines hhead
    induction ds with
    | nil => rfl
    | cons d ds ih =>
      rw [List.flatMap_cons, List.filterMap_append, (hds d List.mem_cons_self).declared,
        ih fun e he => hds e (List.mem_cons_of_mem d he), List.map_cons, List.singleton_append]
  rw [answer, arguments_between (by simpa [isTrimmed] using hbefore) hhead
    (by simpa [isTrimmed] using hafter), declared_join hlines, hdeclared]
  rfl

/-- One argument is declared twice, and what describes it reads like declarations further on. -/
theorem arguments_read_back_twice :
    answer (.filterArgs "scale") ("\n  " ++ join ['\n'] ["size (v2di, default: 0x0)",
      " width (uint): of output", [], "- size (str", "\theight (uint", "size (enum"] ++ " \n \n") =
      [⟨"size", .vec2i⟩, ⟨"size", .enum⟩] :=
  let first : Declaration := ⟨"size", "v2di", ", default: 0x0)",
    [" width (uint): of output", [], "- size (str", "\theight (uint"]⟩
  let second : Declaration := ⟨"size", "enum", [], []⟩
  have hfirst : first.WellFormed := by
    refine ⟨by decide +kernel, by decide +kernel, ?_, by decide, ?_⟩ <;> simp [first]
  have hsecond : second.WellFormed := by
    refine ⟨by decide +kernel, by decide +kernel, ?_, by decide, ?_⟩ <;> simp [second]
  have hds : ∀ d ∈ [first, second], d.WellFormed := by simpa using ⟨hfirst, hsecond⟩
  have hbefore : ∀ c ∈ ("\n  " : Text), c = '\n' ∨ c = ' ' := by simp
  have hafter : ∀ c ∈ (" \n \n" : Text), c = '\n' ∨ c = ' ' := by simp
  arguments_read_back hds hbefore hafter "scale"

end FilterLine.Listing
