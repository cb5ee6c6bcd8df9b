import Mathlib.Data.List.Nodup
import FilterLine.Completion.Engine
import FilterLine.Proofs.Completion.PathWords
import FilterLine.Proofs.Completion.Requests
import FilterLine.Proofs.Text.ByteOrder

/-!
What the completion of a path lists. The text that was typed, without its escaping and with the home
directory in place of `~`, is cut behind its last slash: the front is the directory that is looked at,
the rest is how the names begin. Every entry that begins so is shown once, and as escaping keeps
different names apart the candidates strictly increase, by character and so by byte.
-/
namespace FilterLine

open Text

namespace Text

variable {c : Char} {s t : Text}

theorem cutAfterLast_append_of_mem (h : c ∈ t) :
    cutAfterLast c (s ++ t) = (s ++ (cutAfterLast c t).1, (cutAfterLast c t).2) := by
  obtain ⟨a, b, rfl, hb⟩ := exists_last h
  rw [← List.append_assoc, cutAfterLast_append_cons hb, cutAfterLast_append_cons hb,
    List.append_assoc]

/-- The text up to the last occurrence is empty or ends in it. -/
theorem cutAfterLast_fst (c : Char) (t : Text) :
    (cutAfterLast c t).1 = [] ∨ endsIn c (cutAfterLast c t).1 = true := by
  by_cases h : c ∈ t
  · obtain ⟨a, b, rfl, hb⟩ := exists_last h
    rw [cutAfterLast_append_cons hb]
    apply Or.inr
    simp [endsIn]
  · rw [cutAfterLast_of_not_mem h]
    exact .inl rfl

end Text

namespace Paths

variable {t p : Text} {home : Option Text}

theorem escape_head_ne (t : Text) : (escape t).head? ≠ some ' ' := by
  cases t with
  | nil => simp [escape]
  | cons c t =>
    by_cases hc : c = ' '
    · rw [hc, escape_space]
      simp
    · rw [escape_cons hc]
      simpa using hc

/-- Undoing the escaping gives every text back, also one with backslashes of its own: the one that
stands in front of a space is the one that was put there. -/
theorem leftInverse_escape : Function.LeftInverse unescape escape := by
  intro t
  induction t with
  | nil => rfl
  | cons c t ih =>
    by_cases hspace : c = ' '
    · rw [hspace, escape_space, unescape, ih]
    · have hstep : unescape (c :: escape t) = c :: unescape (escape t) := by
        rw [unescape]
        intro r _ hr
        apply escape_head_ne t
        rw [hr]
        rfl
      rw [escape_cons hspace, hstep, ih]

/-- Where every space stands behind a backslash, escaping puts back what was undone. -/
theorem escape_unescape (h : ∀ a b, t = a ++ ' ' :: b → a.getLast? = some '\\') :
    escape (unescape t) = t := by
  induction t using unescape.induct with
  | case1 => rfl
  | case2 r ih =>
    have hr : ∀ a b, r = a ++ ' ' :: b → a.getLast? = some '\\' := by
      intro a b hr
      have hlast := h ('\\' :: ' ' :: a) b (by rw [hr]; rfl)
      cases a with
      | nil => simp at hlast
      | cons d a => rwa [List.getLast?_cons_cons, List.getLast?_cons_cons] at hlast
    rw [unescape, escape_space, ih hr]
  | case3 c r hpair ih =>
    have hc : c ≠ ' ' := by
      rintro rfl
      have hlast := h [] r rfl
      simp at hlast
    have hr : ∀ a b, r = a ++ ' ' :: b → a.getLast? = some '\\' := by
      intro a b hr
      have hlast := h (c :: a) b (by rw [hr]; rfl)
      cases a with
      | nil => exact absurd hr (hpair b (by simpa using hlast))
      | cons d a => rwa [List.getLast?_cons_cons] at hlast
    rw [unescape, escape_cons hc, ih hr]
    exact hpair

/-- What was typed, with a lone `~` taken as `~/`. -/
def typed (home : Option Text) (start : Text) : Text :=
  if home.isSome ∧ unescape start = ['~'] then ['~', '/'] else unescape start

/-- What the names must begin with is what was typed behind the last slash. -/
theorem typedDirectory_append_base (home : Option Text) (p : Text) :
    typedDirectory home p ++ (Request.ofStart home p).base = typed home p := by
  have hbase : (Request.ofStart home p).base = (cutAfterLast '/' (typed home p)).2 := by
    rw [Request.ofStart, typed]
    generalize unescape p = t
    unfold expandTilde
    split
    · rw [if_pos ⟨rfl, rfl⟩, cutAfterLast_append_of_mem (t := ['/']) (by simp)]
      rfl
    · rename_i r
      rw [if_neg (by simp), cutAfterLast_append_of_mem (by simp)]
      exact (congrArg Prod.snd (cutAfterLast_append_of_mem (s := ['~']) (by simp))).symm
    · rename_i hlone hslash
      rw [if_neg]
      rintro ⟨hhome, rfl⟩
      obtain ⟨h, rfl⟩ := Option.isSome_iff_exists.mp hhome
      exact hlone h rfl rfl
  rw [hbase]
  exact cutAfterLast_append '/' (typed home p)

/-- How an entry is shown: the directory as it was typed, its name, and a mark for what it is. -/
def shown (directory : Text) (e : Entry) : Text :=
  escape (directory ++ e.name) ++ [if e.isDirectory then '/' else ' ']

theorem endsIn_shown (directory : Text) (e : Entry) :
    endsIn '/' (shown directory e) = e.isDirectory := by
  rw [endsIn, shown, List.getLast?_concat]
  cases e.isDirectory <;> rfl

/-- Entries that are shown alike are the same. -/
theorem shown_injective (directory : Text) : Function.Injective (shown directory) := by
  intro e e' heq
  obtain ⟨htext, -⟩ := List.append_inj' heq rfl
  have hname : e.name = e'.name := List.append_cancel_left (leftInverse_escape.injective htext)
  have hdirectory : e.isDirectory = e'.isDirectory := by
    rw [← endsIn_shown directory e, heq, endsIn_shown]
  cases e
  cases e'
  rw [Entry.mk.injEq]
  exact ⟨hname, hdirectory⟩

/-- An entry is shown behind the directory as it was typed. -/
theorem render_eq_shown (home : Option Text) (p : Text) :
    (Request.ofStart home p).render = shown (typedDirectory home p) :=
  funext fun e => (render_ofStart home p e).2

variable {r : Request} {only : Bool} {entries : List Entry}

/-- The candidates are the entries that answer, in some order. -/
theorem candidates_perm : (r.candidates only entries).Perm
    (((entries ++ links).filter (r.admits only)).map r.render) :=
  List.mergeSort_perm _ _

/-- The candidates are sorted. -/
theorem candidates_sorted : (r.candidates only entries).Pairwise fun a b => ¬ b < a := by
  have hsorted := @List.pairwise_mergeSort Text (fun a b => !decide (b < a))
    (fun a b c hab hbc => by
      simp only [Bool.not_eq_true', decide_eq_false_iff_not] at hab hbc ⊢
      exact List.not_lt.mpr (List.le_trans (List.not_lt.mp hab) (List.not_lt.mp hbc)))
    (fun a b => by
      simp only [Bool.or_eq_true, Bool.not_eq_true', decide_eq_false_iff_not, List.not_lt]
      exact List.le_total a b)
    (((entries ++ links).filter (r.admits only)).map r.render)
  exact hsorted.imp fun h => by simpa using h

/-- The names of a listed directory: no two are equal, and none is that of a link. -/
structure Distinct (entries : List Entry) : Prop where
  nodup : (entries.map Entry.name).Nodup
  links : ∀ e ∈ entries, e.name ∉ links.map Entry.name

/-- The names of a listed directory stay distinct when the links are added. -/
theorem Distinct.nodup_append_links (h : Distinct entries) : (entries ++ Paths.links).Nodup := by
  apply List.Nodup.append h.nodup.of_map (by decide)
  intro e he hlink
  exact h.links e he (List.mem_map_of_mem hlink)

/-- No candidate is there twice, so each is below the next. -/
theorem candidates_increasing (h : Distinct entries) (home : Option Text) (p : Text) :
    ((Request.ofStart home p).candidates only entries).Pairwise (· < ·) := by
  have hnodup : ((Request.ofStart home p).candidates only entries).Nodup := by
    rw [candidates_perm.nodup_iff, render_eq_shown, List.nodup_map_iff (shown_injective _)]
    exact h.nodup_append_links.filter _
  apply candidates_sorted.imp₂ _ hnodup
  intro a b hnot hne
  exact (List.le_iff_lt_or_eq.mp (List.not_lt.mp hnot)).resolve_right hne

end Paths

/-- Whether every directory of a tree lists as directories do: each entry under a name of its own,
and the links not among them. -/
structure Tree.Listable (t : Tree) : Prop where
  distinct : ∀ place held, t.at? place = some (.directory held) → (held.map Prod.fst).Nodup
  unlinked : t.Named fun name => name ∉ Paths.links.map Entry.name

def Tree.listed (held : List (Text × Tree)) : List Entry :=
  held.map fun e => ⟨e.1, e.2.isDirectory⟩

theorem Tree.listable_file (content : Bytes) : (file content).Listable where
  distinct place held hat := by cases place <;> cases hat
  unlinked place held hat := by cases place <;> cases hat

theorem Tree.listable_directory {held : List (Text × Tree)} (hnames : (held.map Prod.fst).Nodup)
    (h : ∀ e ∈ held, e.1 ∉ Paths.links.map Entry.name ∧ e.2.Listable) :
    (directory held).Listable where
  distinct place below hat := by
    cases place with
    | nil =>
      cases hat
      exact hnames
    | cons name place =>
      obtain ⟨t, ht, hplace⟩ := Option.bind_eq_some_iff.mp hat
      obtain ⟨before, after, rfl, -⟩ := List.lookup_eq_some_iff.mp ht
      exact (h (name, t) (by simp)).2.distinct place below hplace
  unlinked := named_directory fun e he => ⟨(h e he).1, (h e he).2.unlinked⟩

/-- Every directory on the disk lists distinct names. -/
theorem Tree.Listable.distinct_listed {d : Disk} (hd : d.root.Listable) {path : Text}
    {held : List (Text × Tree)} (hfind : d.find path = .ok (.directory held)) :
    Paths.Distinct (listed held) := by
  obtain ⟨place, -, hat⟩ := Disk.exists_place hfind
  constructor
  · have hnames : (listed held).map Entry.name = held.map Prod.fst := by
      rw [listed, List.map_map]
      rfl
    rw [hnames]
    exact hd.distinct place held hat
  · intro e he
    obtain ⟨entry, hentry, rfl⟩ := List.mem_map.mp he
    exact hd.unlinked place held hat entry hentry

namespace Paths

/-- The paths on a disk that complete a text; none when there is no directory to list. -/
def found (d : Disk) (home : Option Text) (p : Text) (only : Bool) : List Text :=
  PathSource.offers (fun start => complete d.list home start only) p

variable {d : Disk} {home : Option Text} {p : Text} {only : Bool}

theorem found_of_directory {held : List (Text × Tree)}
    (h : d.find (Request.ofStart home p).listing = .ok (.directory held)) :
    found d home p only = (Request.ofStart home p).candidates only (Tree.listed held) := by
  have hlist : d.list (Request.ofStart home p).listing = .ok (Tree.listed held) := by
    rw [Disk.list, h]
    rfl
  rw [found, PathSource.offers]
  simp only [complete, hlist]

theorem found_of_no_directory
    (h : ∀ held, d.find (Request.ofStart home p).listing ≠ .ok (.directory held)) :
    found d home p only = [] := by
  obtain ⟨e, hlist⟩ : ∃ e, d.list (Request.ofStart home p).listing = .error e := by
    rw [Disk.list]
    cases hfind : d.find (Request.ofStart home p).listing with
    | error e => exact ⟨e, rfl⟩
    | ok t =>
      cases t with
      | file content => exact ⟨.notADirectory, rfl⟩
      | directory held => exact absurd hfind (h held)
  rw [found, PathSource.offers]
  simp only [complete, hlist]

/-- There is a directory to list, or nothing is found whatever is asked for. -/
theorem found_cases (d : Disk) (home : Option Text) (p : Text) :
    (∃ held, d.find (Request.ofStart home p).listing = .ok (.directory held) ∧ ∀ only,
      found d home p only = (Request.ofStart home p).candidates only (Tree.listed held)) ∨
    ((∀ held, d.find (Request.ofStart home p).listing ≠ .ok (.directory held)) ∧
      ∀ only, found d home p only = []) := by
  by_cases h : ∃ held, d.find (Request.ofStart home p).listing = .ok (.directory held)
  · obtain ⟨held, hfind⟩ := h
    exact .inl ⟨held, hfind, fun only => found_of_directory hfind⟩
  · have hnone := not_exists.mp h
    exact .inr ⟨hnone, fun only => found_of_no_directory hnone⟩

/-- What is found increases strictly in the order of its bytes. -/
theorem found_increasing (hd : d.root.Listable) :
    (found d home p only).Pairwise fun a b => Utf8.encode a < Utf8.encode b := by
  obtain ⟨held, hfind, hfound⟩ | ⟨-, hfound⟩ := found_cases d home p
  · rw [hfound]
    exact (candidates_increasing (hd.distinct_listed hfind) home p).imp Utf8.encode_lt
  · rw [hfound]
    exact .nil

/-- A home directory with two names that only escaping keeps apart, one that is hidden and one that
begins with a letter of two bytes. -/
def shelf : Disk where
  root := .directory [("h", .directory
    [("a\\ b", .file []), ("a b", .empty), (".a", .file []), ("é", .file [])])]

end Paths
end FilterLine
