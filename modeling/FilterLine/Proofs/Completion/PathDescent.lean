import FilterLine.Proofs.Completion.PathListing
import FilterLine.Proofs.Files.Places

/-!
Going down into a directory that was offered. Its candidate ends in a slash; taken as the start of a
path it is read without its escaping as the directory that was listed, the name, and a slash, so what
it lists is the directory itself, but for the hidden entries. Nothing escapes a tilde, though: the
directory `~` of the working directory is offered as `~/`, which is read as the home directory.
-/
namespace FilterLine

open Text

namespace Paths

variable {home : Option Text} {p t name start : Text}

theorem expandTilde_ne_nil (hne : t ≠ []) : (expandTilde home t).1 ≠ [] := by
  unfold expandTilde
  split
  · simp
  · simp
  · exact hne

/-- A text that ends in a slash is a directory, and no start of a name. -/
theorem ofStart_slash (home : Option Text) (t : Text) :
    typedDirectory home (escape (t ++ ['/'])) = t ++ ['/'] ∧
      (Request.ofStart home (escape (t ++ ['/']))).base = [] ∧
      (Request.ofStart home (escape (t ++ ['/']))).listing = (expandTilde home (t ++ ['/'])).1 := by
  have hne : t ++ ['/'] ≠ ['~'] := by
    intro heq
    have hlast := congrArg List.getLast? heq
    simp at hlast
  have htyped : typed home (escape (t ++ ['/'])) = t ++ ['/'] := by
    rw [typed, leftInverse_escape, if_neg fun h => hne h.2]
  have hdirectory : typedDirectory home (escape (t ++ ['/'])) = t ++ ['/'] := by
    rw [typedDirectory, leftInverse_escape, if_neg fun h => hne h.2,
      cutAfterLast_append_cons (List.not_mem_nil)]
  refine ⟨hdirectory, ?_, ?_⟩
  · have happend := typedDirectory_append_base home (escape (t ++ ['/']))
    rw [hdirectory, htyped] at happend
    exact List.append_right_eq_self.mp happend
  · have hlooked := (render_ofStart home (escape (t ++ ['/'])) ⟨[], false⟩).1
    rw [hdirectory] at hlooked
    rw [Request.listing, hlooked, if_neg (expandTilde_ne_nil (by simp))]

/-- Whether texts are how a directory is listed behind a text: its entries but for the hidden ones,
each once, in the order of their bytes. -/
structure Lists (front : Text) (held : List (Text × Tree)) (found : List Text) : Prop where
  entries : found.Perm (((Tree.listed held).filter fun e => e.name.head? ≠ some '.').map fun e =>
    front ++ escape e.name ++ [if e.isDirectory then '/' else ' '])
  increasing : found.Pairwise fun a b => Utf8.encode a < Utf8.encode b

/-- A text that ends in a slash lists the directory it is read as. -/
theorem lists_slash {d : Disk} (hd : d.root.Listable) (home : Option Text) (t : Text) :
    match d.find (expandTilde home (t ++ ['/'])).1 with
    | .ok (.directory held) =>
      Lists (escape (t ++ ['/'])) held (found d home (escape (t ++ ['/'])) false)
    | _ => found d home (escape (t ++ ['/'])) false = [] := by
  obtain ⟨htyped, hbase, hlisting⟩ := ofStart_slash home t
  have hadmits : ∀ e : Entry, (Request.ofStart home (escape (t ++ ['/']))).admits false e =
      decide (e.name.head? ≠ some '.') := by
    intro e
    rw [Request.admits, hbase, Bool.eq_iff_iff]
    simp
  have hlinks : links.filter (fun e => decide (e.name.head? ≠ some '.')) = [] := by decide
  rw [← hlisting]
  split
  · rename_i held hfind
    refine ⟨?_, found_increasing hd⟩
    rw [found_of_directory hfind]
    apply candidates_perm.trans
    rw [render_eq_shown, htyped, List.filter_congr fun e _ => hadmits e, List.filter_append,
      hlinks, List.append_nil]
    apply List.Perm.of_eq
    apply List.map_congr_left
    intro e _
    rw [shown, escape_append]
  · rename_i hnone
    exact found_of_no_directory hnone

/-- A directory, a name and a slash begin with `~` as a part of its own only if the directory does, or
if there is none and the name is `~`. -/
theorem append_ne_tilde (hstart : start = [] ∨ endsIn '/' start = true) (hname : '/' ∉ name)
    (htilde : ¬ (start = [] ∧ name = ['~'])) (hslash : ∀ r, start ≠ '~' :: '/' :: r) (r : Text) :
    start ++ name ++ ['/'] ≠ '~' :: '/' :: r := by
  intro heq
  rcases hstart with rfl | hends
  · have hcut : cutFirst? '/' (name ++ ['/']) = some (name, []) := cutFirst?_append hname
    have hcut' : cutFirst? '/' ('~' :: '/' :: r) = some (['~'], r) := rfl
    rw [← List.nil_append name, heq, hcut'] at hcut
    cases hcut
    exact htilde ⟨rfl, rfl⟩
  · match start with
    | [] => simp [endsIn] at hends
    | [c] =>
      obtain ⟨rfl, -⟩ := List.cons_eq_cons.mp heq
      simp [endsIn] at hends
    | c :: c' :: rest =>
      obtain ⟨hc, heq⟩ := List.cons_eq_cons.mp heq
      obtain ⟨hc', -⟩ := List.cons_eq_cons.mp heq
      exact hslash rest (by rw [hc, hc'])

/-- The name of a directory and a slash stay behind the directory they were typed behind when `~` is
replaced, unless they are the `~` that is replaced. -/
theorem expandTilde_append (hstart : start = [] ∨ endsIn '/' start = true) (hname : '/' ∉ name)
    (htilde : ¬ (home.isSome ∧ start = [] ∧ name = ['~'])) :
    (expandTilde home (start ++ name ++ ['/'])).1 =
      (expandTilde home start).1 ++ name ++ ['/'] := by
  cases home with
  | none => rfl
  | some h =>
    by_cases hslash : ∃ r, start = '~' :: '/' :: r
    · obtain ⟨r, rfl⟩ := hslash
      simp [expandTilde]
    · have hslash' : ∀ r, start ≠ '~' :: '/' :: r := fun r heq => hslash ⟨r, heq⟩
      have hkept := append_ne_tilde hstart hname (fun h => htilde ⟨rfl, h⟩) hslash'
      have hlone : start ++ name ++ ['/'] ≠ ['~'] := by
        intro heq
        have hlast := congrArg List.getLast? heq
        simp at hlast
      have hlone' : start ≠ ['~'] := by
        rintro rfl
        simp [endsIn] at hstart
      rw [expandTilde_of_ne hlone hkept, expandTilde_of_ne hlone' hslash']

variable {d : Disk} {e : Entry} {only : Bool}

/-- An entry that is shown has been asked for. -/
theorem base_of_mem_found (hc : (Request.ofStart home p).render e ∈ found d home p only) :
    (Request.ofStart home p).base <+: e.name := by
  obtain ⟨held, -, hfound⟩ | ⟨-, hfound⟩ := found_cases d home p
  · rw [hfound, candidates_perm.mem_iff, render_eq_shown] at hc
    obtain ⟨e', he', hshown⟩ := List.mem_map.mp hc
    rw [shown_injective _ hshown] at he'
    have hadmits := (List.mem_filter.mp he').2
    simp only [Request.admits, Bool.and_eq_true, List.isPrefixOf_iff_prefix] at hadmits
    exact hadmits.1.1
  · rw [hfound] at hc
    cases hc

/-- Only the empty text is read as empty. -/
theorem eq_nil_of_unescape (h : unescape p = []) : p = [] := by
  unfold unescape at h
  split at h
  · rfl
  · cases h
  · cases h

/-- A `~` that is shown with nothing in front of it has been asked for with nothing typed: where there
is a home directory, what begins with `~` is taken for that. -/
theorem eq_nil_of_base_prefix (hhome : home.isSome) (hdirectory : typedDirectory home p = [])
    (hbase : (Request.ofStart home p).base <+: ['~']) : p = [] := by
  have htyped := typedDirectory_append_base home p
  rw [hdirectory, List.nil_append] at htyped
  rw [htyped, typed] at hbase
  split at hbase
  · exact absurd hbase (by decide)
  · rename_i hlone
    rcases List.prefix_cons_iff.mp hbase with hnil | ⟨t, ht, hrest⟩
    · exact eq_nil_of_unescape hnil
    · rw [List.prefix_nil.mp hrest] at ht
      exact absurd ⟨hhome, ht⟩ hlone

end Paths

/-- Whether a tree can stand on a disk: it lists as directories do, and its names can be names. -/
structure Tree.WellNamed (t : Tree) : Prop where
  listable : t.Listable
  named : t.Named Text.NamesEntry

theorem Tree.wellNamed_file (content : Bytes) : (file content).WellNamed where
  listable := listable_file content
  named place held hat := by cases place <;> cases hat

theorem Tree.wellNamed_directory {held : List (Text × Tree)} (hnames : (held.map Prod.fst).Nodup)
    (h : ∀ e ∈ held, e.1 ∉ Paths.links.map Entry.name ∧ e.1.NamesEntry)
    (hbelow : ∀ e ∈ held, e.2.WellNamed) : (directory held).WellNamed where
  listable := listable_directory hnames fun e he => ⟨(h e he).1, (hbelow e he).listable⟩
  named := named_directory fun e he => ⟨(h e he).2, (hbelow e he).named⟩

/-- Where a directory of a listing stands there is a directory. -/
theorem Tree.Listable.exists_inside {d : Disk} (hd : d.root.Listable) {place : List Text}
    {held : List (Text × Tree)} (hat : d.at? place = some (.directory held)) {e : Entry}
    (he : e ∈ listed held ++ Paths.links) (hdirectory : e.isDirectory = true) :
    ∃ inner, d.at? (Disk.inside place e.name) = some (.directory inner) := by
  rcases List.mem_append.mp he with he | he
  · obtain ⟨⟨name, t⟩, hmem, rfl⟩ := List.mem_map.mp he
    cases t with
    | file content => cases hdirectory
    | directory inner =>
      refine ⟨inner, ?_⟩
      have hlink := hd.unlinked place held hat _ hmem
      have hself : name ≠ ['.'] := fun h => hlink (by simp [h, Paths.links])
      have hup : name ≠ ['.', '.'] := fun h => hlink (by simp [h, Paths.links])
      rw [Disk.inside, if_neg hself, if_neg hup, Disk.at?_concat hat]
      obtain ⟨before, after, rfl⟩ := List.append_of_mem hmem
      refine List.lookup_eq_some_iff.mpr ⟨before, after, rfl, fun other hother => ?_⟩
      have hnodup := hd.distinct place _ hat
      rw [List.map_append, List.map_cons, List.nodup_append] at hnodup
      have hne := hnodup.2.2 _ (List.mem_map_of_mem hother) _ List.mem_cons_self
      simpa using hne.symm
  · simp only [Paths.links, List.mem_cons, List.not_mem_nil, or_false] at he
    obtain rfl | rfl := he
    · exact ⟨held, hat⟩
    · exact Disk.exists_above hat

namespace Paths

/-- What a directory holds is listed in it or is a link, and can be a name. -/
theorem Holds.of_find {d : Disk} (hnames : d.root.Named Text.NamesEntry) {directory : Text}
    {held : List (Text × Tree)} (hfind : d.find directory = .ok (.directory held)) {e : Entry}
    (h : Holds d directory e) : e ∈ Tree.listed held ++ links ∧ e.name.NamesEntry := by
  rcases h with he | ⟨entries, hlist, he⟩
  · have hlinks : ∀ e ∈ links, e.name.NamesEntry := by decide
    exact ⟨List.mem_append_right _ he, hlinks e he⟩
  · have hname := Tree.Named.list hnames hlist e he
    rw [Disk.list, hfind] at hlist
    cases hlist
    exact ⟨List.mem_append_left _ he, hname⟩

/-- A directory that was offered, taken as the start of a path, lists itself: the entries that are not
hidden, each shown as its name behind the candidate. The one exception is a `~` in the working
directory, which lists the home directory. -/
theorem directory_reads_back {d : Disk} (hd : d.root.WellNamed) {home : Option Text} {p : Text}
    {only : Bool} {e : Entry} (he : Holds d (Request.ofStart home p).listing e) {c : Text}
    (hrender : c = (Request.ofStart home p).render e) (hc : c ∈ found d home p only)
    (hslash : endsIn '/' c = true) :
    ∃ place inner, d.locate (Request.ofStart home p).listing = .ok place ∧
      d.at? (Disk.inside place e.name) = some (.directory inner) ∧
      (¬ (home.isSome ∧ p = [] ∧ e.name = ['~']) → Lists c inner (found d home c false)) ∧
      ∀ h, home = some h → p = [] → e.name = ['~'] → c = ['~', '/'] ∧
        match d.find (trimEndWhile (· == '/') h ++ ['/']) with
        | .ok (.directory held) => Lists c held (found d home c false)
        | _ => found d home c false = [] := by
  subst hrender
  have hbase := base_of_mem_found hc
  have hshown : (Request.ofStart home p).render e = shown (typedDirectory home p) e :=
    congrFun (render_eq_shown home p) e
  rw [hshown] at hc hslash ⊢
  rw [endsIn_shown] at hslash
  have hcandidate : shown (typedDirectory home p) e =
      escape (typedDirectory home p ++ e.name ++ ['/']) := by
    rw [shown, hslash, escape_append _ ['/']]
    rfl
  rw [hcandidate]
  obtain ⟨held, hfind, -⟩ | ⟨-, hfound⟩ := found_cases d home p
  · have hdirectory := (render_ofStart home p e).1
    obtain ⟨hlisted, hname⟩ := he.of_find hd.named hfind
    have hends : (Request.ofStart home p).directory = [] ∨
        endsIn '/' (Request.ofStart home p).directory = true := cutAfterLast_fst '/' _
    obtain ⟨place, hlocate, hat, hwithin⟩ := Disk.find_within hends hfind
    obtain ⟨inner, hinner⟩ := hd.listable.exists_inside hat hlisted hslash
    refine ⟨place, inner, hlocate, hinner, fun htilde => ?_, ?_⟩
    · have hexpand : (expandTilde home (typedDirectory home p ++ e.name ++ ['/'])).1 =
          (Request.ofStart home p).directory ++ e.name ++ ['/'] := by
        rw [hdirectory]
        apply expandTilde_append (cutAfterLast_fst '/' _) hname.slash
        rintro ⟨hhome, hempty, htilde'⟩
        rw [htilde'] at hbase
        exact htilde ⟨hhome, eq_nil_of_base_prefix hhome hempty hbase, htilde'⟩
      have hlists := lists_slash hd.listable home (typedDirectory home p ++ e.name)
      rw [hexpand, hwithin e.name inner hname hinner] at hlists
      exact hlists
    · rintro h rfl rfl htilde
      have htyped : typedDirectory (some h) [] = [] := rfl
      rw [htyped, htilde]
      exact ⟨rfl, lists_slash hd.listable (some h) ['~']⟩
  · rw [hfound] at hc
    cases hc

/-- Two directories called `~`: one in the working directory, and one in the home directory that holds
two names only escaping keeps apart and one that is hidden. -/
def tildes : Disk where
  root := .directory
    [("h", .directory [("~", .directory [("a\\ b", .file []), ("a b", .empty), (".a", .file [])])]),
      ("~", .directory [("a", .file [])])]

theorem wellNamed_tildes : tildes.root.WellNamed := by
  have hfile : (Tree.file []).WellNamed := Tree.wellNamed_file []
  have hempty : Tree.empty.WellNamed := Tree.wellNamed_directory .nil (by simp) (by simp)
  apply Tree.wellNamed_directory (by decide) (by decide)
  simp only [List.forall_mem_cons]
  refine ⟨?_, Tree.wellNamed_directory (by decide) (by decide) (by simpa using hfile), by simp⟩
  apply Tree.wellNamed_directory (by decide) (by decide)
  simp only [List.forall_mem_cons]
  refine ⟨Tree.wellNamed_directory (by decide) (by decide) ?_, by simp⟩
  simp only [List.forall_mem_cons]
  exact ⟨hfile, hempty, hfile, by simp⟩

theorem directory_reads_back_tildes :
    ("~/~/" : Text) ∈ found tildes (some "/h/") "~/" false ∧
      Lists "~/~/" [("a\\ b", .file []), ("a b", .empty), (".a", .file [])]
        (found tildes (some "/h/") "~/~/" false) := by
  have hmem : ("~/~/" : Text) ∈ found tildes (some "/h/") "~/" false := by
    have hhome : tildes.find (Request.ofStart (some "/h/") "~/").listing = .ok (.directory
        [("~", .directory [("a\\ b", .file []), ("a b", .empty), (".a", .file [])])]) := rfl
    rw [found_of_directory hhome, candidates_perm.mem_iff]
    decide
  refine ⟨hmem, ?_⟩
  obtain ⟨place, inner, hlocate, hinner, hlists, -⟩ :=
    directory_reads_back (e := ⟨['~'], true⟩) wellNamed_tildes
      (.inr ⟨_, rfl, List.mem_cons_self⟩) rfl hmem rfl
  cases hlocate
  cases hinner
  exact hlists (by simp)

/-- The `~` of the working directory is offered as `~/`, and that lists the home directory. -/
theorem tilde_leads_home :
    let e : Entry := ⟨['~'], true⟩
    tildes.root.WellNamed ∧ Holds tildes (Request.ofStart (some "/h/") []).listing e ∧
      (Request.ofStart (some "/h/") []).render e = ("~/" : Text) ∧
      ("~/" : Text) ∈ found tildes (some "/h/") [] false ∧
      tildes.at? (Disk.inside [] e.name) = some (.directory [("a", .file [])]) ∧
      found tildes (some "/h/") "~/" false = [("~/~/" : Text)] ∧
      ¬ Lists "~/" [("a", .file [])] (found tildes (some "/h/") "~/" false) := by
  have hfound : found tildes (some "/h/") "~/" false = [("~/~/" : Text)] :=
    List.perm_singleton.mp (lists_slash wellNamed_tildes.listable (some "/h/") ['~']).entries
  refine ⟨wellNamed_tildes, .inr ⟨_, rfl, by decide⟩, rfl, ?_, rfl, hfound, fun hlists => ?_⟩
  · have hhere : tildes.find (Request.ofStart (some "/h/") []).listing = .ok tildes.root := rfl
    rw [found_of_directory hhere, candidates_perm.mem_iff]
    decide
  · have hentries := hlists.entries
    rw [hfound] at hentries
    exact absurd (List.perm_singleton.mp hentries.symm) (by decide)

end Paths
end FilterLine
