import Mathlib.Data.List.TakeWhile
import FilterLine.Files.Disk
import FilterLine.Line.Context
import FilterLine.Proofs.Completion.Escaping
import FilterLine.Proofs.Files.Disk

/-!
Paths as words of a line. The path of a candidate is the directory as it was typed, followed by the
name of an entry; escaped and put in place of what was typed, it is the word under the cursor, or the
last finished one, and without the escaping it is that path again.
-/
namespace FilterLine

open Text

namespace Text

variable {c : Char} {a b t : Text}

theorem ne_of_mem_reverse (h : c ∉ t) : ∀ d ∈ t.reverse, decide (d ≠ c) = true := by
  intro d hd
  have hne : d ≠ c := fun heq => h (by simpa [heq] using hd)
  simpa using hne

theorem cutAfterLast_of_not_mem (h : c ∉ t) : cutAfterLast c t = ([], t) := by
  have hall := ne_of_mem_reverse h
  rw [cutAfterLast, List.takeWhile_eq_self_iff.mpr hall, List.dropWhile_eq_nil_iff.mpr hall,
    List.reverse_reverse, List.reverse_nil]

theorem cutAfterLast_append_cons (h : c ∉ b) : cutAfterLast c (a ++ c :: b) = (a ++ [c], b) := by
  have hall := ne_of_mem_reverse h
  have hreverse : (a ++ c :: b).reverse = b.reverse ++ c :: a.reverse := by simp
  rw [cutAfterLast, hreverse, List.takeWhile_append_of_pos hall, List.dropWhile_append_of_pos hall]
  simp

/-- Where a character occurs it has a last occurrence. -/
theorem exists_last (h : c ∈ t) : ∃ a b, t = a ++ c :: b ∧ c ∉ b := by
  obtain ⟨b, a, hreverse, hb⟩ := List.eq_append_cons_of_mem (List.mem_reverse.mpr h)
  refine ⟨a.reverse, b.reverse, ?_, by simpa using hb⟩
  rw [← List.reverse_reverse t, hreverse]
  simp

end Text

namespace Paths

variable {t : Text}

/-- The directory of a path as it was typed, up to its last slash. A lone `~` is taken as `~/`. -/
def typedDirectory (home : Option Text) (start : Text) : Text :=
  let t := unescape start
  (cutAfterLast '/' (if home.isSome ∧ t = ['~'] then ['~', '/'] else t)).1

/-- Only a lone tilde and one in front of a slash stand for the home directory. -/
theorem expandTilde_of_ne {home : Option Text} (hlone : t ≠ ['~'])
    (hslash : ∀ r, t ≠ '~' :: '/' :: r) : expandTilde home t = (t, none) := by
  unfold expandTilde
  split
  · exact absurd rfl hlone
  · exact absurd rfl (hslash _)
  · rfl

/-- A text that does not begin with `~/` is taken as it is, and so is its directory. -/
theorem expandTilde_directory {home : Option Text} (hslash : ∀ r, t ≠ '~' :: '/' :: r) :
    expandTilde home (cutAfterLast '/' t).1 = ((cutAfterLast '/' t).1, none) := by
  by_cases hmem : '/' ∈ t
  · obtain ⟨a, b, rfl, hb⟩ := exists_last hmem
    rw [cutAfterLast_append_cons hb]
    refine expandTilde_of_ne (fun heq => ?_) fun r heq => hslash (r ++ b) ?_
    · have hlast := congrArg List.getLast? heq
      simp at hlast
    · have hcons : a ++ ['/'] = '~' :: '/' :: r := heq
      rw [List.append_cons, hcons]
      rfl
  · rw [cutAfterLast_of_not_mem hmem]
    exact expandTilde_of_ne (by simp) (by simp)

/-- The home directory stands in place of `~` for the look-up, and `~` in its place in the
candidate: that is the directory as it was typed, and the name. A lone tilde is looked up as if a
slash stood behind it. -/
theorem render_ofStart (home : Option Text) (start : Text) (e : Entry) :
    (Request.ofStart home start).directory = (expandTilde home (typedDirectory home start)).1 ∧
      (Request.ofStart home start).render e =
        escape (typedDirectory home start ++ e.name) ++ [if e.isDirectory then '/' else ' '] := by
  rw [Request.ofStart, Request.render, typedDirectory]
  generalize unescape start = t
  by_cases htilde : home.isSome ∧ (t = ['~'] ∨ ∃ r, t = '~' :: '/' :: r)
  · obtain ⟨hsome, hshape⟩ := htilde
    obtain ⟨h, rfl⟩ := Option.isSome_iff_exists.mp hsome
    obtain ⟨r, hexpand, htyped⟩ : ∃ r, expandTilde (some h) t =
        (trimEndWhile (· == '/') h ++ '/' :: r, some (trimEndWhile (· == '/') h)) ∧
        (if (some h).isSome ∧ t = ['~'] then ['~', '/'] else t) = '~' :: '/' :: r := by
      rcases hshape with rfl | ⟨r, rfl⟩
      · exact ⟨[], rfl, rfl⟩
      · exact ⟨r, rfl, by simp⟩
    obtain ⟨a, b, hr, hb⟩ := exists_last (c := '/') (t := '/' :: r) (by simp)
    obtain ⟨z, hz⟩ : ∃ z, a ++ ['/'] = '/' :: z := by
      cases a with
      | nil => exact ⟨[], rfl⟩
      | cons d a =>
        obtain ⟨rfl, -⟩ := List.cons_eq_cons.mp hr
        exact ⟨a ++ ['/'], rfl⟩
    have hcut : ∀ s : Text, cutAfterLast '/' (s ++ '/' :: r) = (s ++ '/' :: z, b) := by
      intro s
      rw [hr, ← List.append_assoc, cutAfterLast_append_cons hb, List.append_assoc, hz]
    have hcut' : cutAfterLast '/' ('~' :: '/' :: r) = ('~' :: '/' :: z, b) := hcut ['~']
    rw [htyped, hexpand, hcut']
    simp only [hcut]
    exact ⟨rfl, by simp⟩
  · have hlone : ¬ (home.isSome ∧ t = ['~']) := fun h => htilde ⟨h.1, .inl h.2⟩
    obtain ⟨hexpand, hdirectory⟩ : expandTilde home t = (t, none) ∧
        expandTilde home (cutAfterLast '/' t).1 = ((cutAfterLast '/' t).1, none) := by
      cases home with
      | none => exact ⟨rfl, rfl⟩
      | some h =>
        have hslash : ∀ r, t ≠ '~' :: '/' :: r := fun r heq => htilde ⟨rfl, .inr ⟨r, heq⟩⟩
        exact ⟨expandTilde_of_ne (fun heq => hlone ⟨rfl, heq⟩) hslash, expandTilde_directory hslash⟩
    rw [if_neg hlone, hexpand, hdirectory]
    exact ⟨rfl, rfl⟩

end Paths

/-- Whether all names in a tree have a property. -/
def Tree.Named (P : Text → Prop) (t : Tree) : Prop :=
  ∀ place entries, t.at? place = some (.directory entries) → ∀ e ∈ entries, P e.1

theorem Tree.named_directory {P : Text → Prop} {entries : List (Text × Tree)}
    (h : ∀ e ∈ entries, P e.1 ∧ e.2.Named P) : (directory entries).Named P := by
  intro place held hat
  cases place with
  | nil =>
    cases hat
    exact fun e he => (h e he).1
  | cons name place =>
    obtain ⟨t, ht, hplace⟩ := Option.bind_eq_some_iff.mp hat
    obtain ⟨before, after, rfl, -⟩ := List.lookup_eq_some_iff.mp ht
    exact (h (name, t) (by simp)).2 place held hplace

/-- The entries of a directory on the disk have the property that all names in the tree have. -/
theorem Tree.Named.list {P : Text → Prop} {d : Disk} (h : d.root.Named P) {path : Text}
    {entries : List Entry} (hlist : d.list path = .ok entries) : ∀ e ∈ entries, P e.name := by
  rw [Disk.list] at hlist
  cases hfind : d.find path with
  | error e =>
    rw [hfind] at hlist
    cases hlist
  | ok t =>
    rw [hfind] at hlist
    cases t with
    | file content => cases hlist
    | directory held =>
      cases hlist
      obtain ⟨place, -, hat⟩ := Disk.exists_place hfind
      intro e he
      obtain ⟨entry, hentry, rfl⟩ := List.mem_map.mp he
      exact h place held hat entry hentry

namespace Paths

def inputLine (t : Text) : Text := ("gpac -i " : Text) ++ t

theorem lastCut_inputLine :
    Line.LastCut isBlank (inputLine []) [("gpac" : Text), ("-i" : Text)] (inputLine []) [] where
  text := rfl
  outside := by decide
  uncut := by simp [Line.Uncut, Line.scan]
  split u := by cases u <;> rfl
  ends := .inr ⟨by simp, ("gpac -i" : Text), ' ', rfl, by decide⟩

/-- The name of an input is the word that is being typed. -/
theorem parse_inputLine {t : Text} (h : Plain t) :
    let l := CommandLine.parse (inputLine (escape t)) (inputLine (escape t)).length
    l.quoteSynthesized = false ∧ l.current = escape t ∧
      Context.ofLine l = .inputEndpoint (escape t) := by
  intro l
  obtain ⟨huncut, hafter⟩ := escape_whole h
  obtain ⟨before, hl, hbefore⟩ : ∃ before, l = ⟨before ++ [escape t], false⟩ ∧
      before = [("gpac" : Text), ("-i" : Text)] := by
    refine ⟨_, ?_, rfl⟩
    by_cases hne : escape t = []
    · simp only [l, hne]
      decide
    · have hparse := Line.parse_of_uncut lastCut_inputLine huncut hne
      rw [hafter] at hparse
      exact hparse
  rw [Context.ofLine, hl, CommandLine.before, CommandLine.current, List.dropLast_concat,
    List.getLast?_concat, hbefore]
  exact ⟨rfl, rfl, rfl⟩

/-- A blank behind it ends the name of an input. -/
theorem parse_inputLine_blank {t : Text} (h : Plain t) (hne : t ≠ []) :
    CommandLine.parse (inputLine (escape t ++ [' '])) (inputLine (escape t ++ [' '])).length =
      ⟨[("gpac" : Text), ("-i" : Text), escape t, []], false⟩ := by
  obtain ⟨huncut, hafter⟩ := escape_whole h
  have hescaped : escape t ≠ [] := by
    intro hnil
    have hback := unescape_escape h.backslash
    rw [hnil] at hback
    exact hne hback.symm
  exact Line.parse_of_blank lastCut_inputLine huncut hescaped hafter

/-- Whether a directory has an entry: one that is listed, or a link. -/
def Holds (d : Disk) (directory : Text) (e : Entry) : Prop :=
  e ∈ links ∨ ∃ entries, d.list directory = .ok entries ∧ e ∈ entries

/-- The directory of an escaped path is plain once it is read. -/
theorem plain_typedDirectory {p : Text} (h : Escaped p) (home : Option Text) :
    Plain (typedDirectory home p) := by
  rw [typedDirectory]
  generalize htyped : (if home.isSome ∧ unescape p = ['~'] then ['~', '/'] else unescape p) = t
  have ht : Plain t := by
    rw [← htyped]
    split
    · decide
    · exact h.escape_unescape.2
  refine ht.of_subset (List.IsPrefix.subset ⟨(cutAfterLast '/' t).2, ?_⟩)
  exact cutAfterLast_append '/' t

/-- Every candidate is made for an entry of the directory that is looked at. -/
theorem exists_entry {d : Disk} {home : Option Text} {p c : Text} {found : List Text}
    (hfound : complete d.list home p false = .ok found) (hc : c ∈ found) :
    ∃ e, Holds d (Request.ofStart home p).listing e ∧ c = (Request.ofStart home p).render e := by
  simp only [complete] at hfound
  cases hlist : d.list (Request.ofStart home p).listing with
  | error e =>
    rw [hlist] at hfound
    cases hfound
  | ok entries =>
    rw [hlist] at hfound
    cases hfound
    rw [Request.candidates, List.mem_mergeSort] at hc
    obtain ⟨e, he, rfl⟩ := List.mem_map.mp hc
    refine ⟨e, ?_, rfl⟩
    rcases List.mem_append.mp (List.mem_filter.mp he).1 with he | he
    · exact .inr ⟨entries, hlist, he⟩
    · exact .inl he

/-- On a disk with plain names every entry of a directory has one. -/
theorem Holds.plain {d : Disk} (hd : d.root.Named fun name => name ≠ [] ∧ Plain name)
    {directory : Text} {e : Entry} (h : Holds d directory e) : e.name ≠ [] ∧ Plain e.name := by
  rcases h with he | ⟨entries, hlist, he⟩
  · have hlinks : ∀ e ∈ links, e.name ≠ [] ∧ Plain e.name := by decide
    exact hlinks e he
  · exact Tree.Named.list hd hlist e he

/-- What is offered for the name of an input can be put in its place. The line is closed, and without
the escaping the new word is the directory as it was typed, followed by the name of an entry: a file
ends the word, a directory leaves it open behind a slash. -/
theorem candidate_reads_back {d : Disk} (hd : d.root.Named fun name => name ≠ [] ∧ Plain name)
    {home : Option Text} {p : Text} (hp : Escaped p) {found : List Text}
    (hfound : complete d.list home p false = .ok found) {c : Text} (hc : c ∈ found) :
    let directory := typedDirectory home p
    let l := CommandLine.parse (inputLine c) (inputLine c).length
    Context.ofCursor (inputLine p) (inputLine p).length = .inputEndpoint p ∧
      (Request.ofStart home p).directory = (expandTilde home directory).1 ∧
      l.quoteSynthesized = false ∧
      ∃ e, Holds d (Request.ofStart home p).listing e ∧
        (e.isDirectory = false ∧ (∃ word, c = word ++ [' '] ∧
            l.words = [("gpac" : Text), ("-i" : Text), word, []] ∧
            unescape word = directory ++ e.name) ∨
          e.isDirectory = true ∧ c.getLast? = some '/' ∧ l.current = c ∧
            Context.ofLine l = .inputEndpoint c ∧ unescape c = directory ++ e.name ++ ['/']) := by
  intro directory l
  obtain ⟨hescaped, hplain⟩ := hp.escape_unescape
  have hcontext : Context.ofCursor (inputLine p) (inputLine p).length = .inputEndpoint p := by
    have hparse := parse_inputLine hplain
    rw [hescaped] at hparse
    exact hparse.2.2
  obtain ⟨e, he, hrender⟩ := exists_entry hfound hc
  obtain ⟨hlooked, hshown⟩ := render_ofStart home p e
  rw [hshown] at hrender
  obtain ⟨hname, hplainname⟩ := he.plain hd
  have hpath : Plain (directory ++ e.name) := (plain_typedDirectory hp home).append hplainname
  refine ⟨hcontext, hlooked, ?_⟩
  cases hdirectory : e.isDirectory with
  | false =>
    rw [hdirectory, if_neg (by simp)] at hrender
    have hparse : l = _ := hrender ▸ parse_inputLine_blank hpath (by simp [hname])
    rw [hparse]
    exact ⟨rfl, e, he, .inl ⟨hdirectory, _, hrender, rfl, unescape_escape hpath.backslash⟩⟩
  | true =>
    have hslash : Plain (directory ++ e.name ++ ['/']) := hpath.append (by decide)
    have hc' : c = escape (directory ++ e.name ++ ['/']) := by
      rw [hrender, hdirectory, if_pos rfl, escape_append _ ['/']]
      rfl
    obtain ⟨hclosed, hcurrent, hinput⟩ := parse_inputLine hslash
    rw [← hc'] at hclosed hcurrent hinput
    refine ⟨hclosed, e, he, .inr ⟨hdirectory, ?_, hcurrent, hinput, ?_⟩⟩
    · rw [hrender, hdirectory, if_pos rfl, List.getLast?_concat]
    · rw [hc', unescape_escape hslash.backslash]

/-- A home directory that holds a directory with two spaces in its name. -/
def clips : Disk where
  root := .directory [("h", .directory [("my  clips", .empty)])]

theorem named_clips : clips.root.Named fun name => name ≠ [] ∧ Plain name := by
  refine Tree.named_directory fun e he => ?_
  rw [List.mem_singleton.mp he]
  refine ⟨by decide, Tree.named_directory fun e he => ?_⟩
  rw [List.mem_singleton.mp he]
  exact ⟨by decide, Tree.named_directory (by simp)⟩

theorem candidate_reads_back_clips :
    let c : Text := "~/my\\ \\ clips/"
    let l := CommandLine.parse (inputLine c) (inputLine c).length
    (∃ found, complete clips.list (some "/h/") "~/my\\ " false = .ok found ∧ c ∈ found) ∧
      l.quoteSynthesized = false ∧ l.current = c ∧ Context.ofLine l = .inputEndpoint c ∧
      unescape c = ("~/my  clips/" : Text) := by
  intro c l
  have hfound : ∃ found, complete clips.list (some "/h/") "~/my\\ " false = .ok found ∧
      c ∈ found := by
    refine ⟨_, rfl, ?_⟩
    rw [Request.candidates, List.mem_mergeSort]
    decide
  refine ⟨hfound, ?_⟩
  obtain ⟨found, hcomplete, hc⟩ := hfound
  have hescaped : Escaped "~/my\\ " := escaped_escape (t := "~/my ") (by decide)
  obtain ⟨-, -, hclosed, e, -, ⟨-, word, hword, -⟩ | ⟨-, -, hcurrent, hinput, -⟩⟩ :=
    candidate_reads_back named_clips hescaped hcomplete hc
  · have hlast := congrArg List.getLast? hword
    simp [c] at hlast
  · exact ⟨hclosed, hcurrent, hinput, by decide⟩

end Paths
end FilterLine
