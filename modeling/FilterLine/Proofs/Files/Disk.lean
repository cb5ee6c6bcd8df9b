import FilterLine.Files.Disk

/-!
Writing a file and reading it. A file is put where no directory stands, so every directory stays one
and keeps its names, and a path leads where it led before; then what was written at a path is what is
read there.
-/
namespace FilterLine

namespace Tree

variable {t u : Tree} {name n : Text} {entries : List (Text × Tree)}

/-- An entry that is put is found, and the others are as before. -/
theorem lookup_putChild (name n : Text) (t : Tree) (entries : List (Text × Tree)) :
    (putChild name t entries).lookup n = if n = name then some t else entries.lookup n := by
  induction entries with
  | nil => by_cases h : n = name <;> grind [putChild]
  | cons e r ih =>
    simp only [putChild]
    by_cases he : e.1 = name <;> by_cases h : n = name <;> grind

theorem put_directory (held : List (Text × Tree)) (name : Text) (names : List Text) (u : Tree) :
    (directory held).put (name :: names) u =
      directory (putChild name (((held.lookup name).getD empty).put names u) held) := rfl

/-- Names lead on from where the names before them lead. -/
theorem at?_append (t : Tree) (xs ys : List Text) :
    t.at? (xs ++ ys) = (t.at? xs).bind (·.at? ys) := by
  induction xs generalizing t with
  | nil => rfl
  | cons x xs ih =>
    rw [List.cons_append, at?, at?, Option.bind_assoc]
    exact congrArg _ (funext ih)

/-- A tree is found where it was put. -/
theorem at?_put (t u : Tree) (names : List Text) : (t.put names u).at? names = some u := by
  induction names generalizing t with
  | nil => rfl
  | cons name names ih =>
    obtain ⟨held, hput⟩ : ∃ held, t.put (name :: names) u =
        directory (putChild name (((held.lookup name).getD empty).put names u) held) := by
      cases t <;> exact ⟨_, rfl⟩
    rw [hput, at?, child?, lookup_putChild, if_pos rfl]
    exact ih _

/-- Where a tree is put in place of no directory, all directories stay, with the names in them. -/
theorem exists_directory_put {names place : List Text}
    (hfree : ∀ entries, t.at? names ≠ some (directory entries))
    (h : t.at? place = some (directory entries)) :
    ∃ entries', (t.put names u).at? place = some (directory entries') ∧
      ∀ n, (entries.lookup n).isSome → (entries'.lookup n).isSome := by
  induction names generalizing t place with
  | nil =>
    cases t with
    | directory _ => exact absurd rfl (hfree _)
    | file _ => cases place <;> cases h
  | cons name names ih =>
    cases t with
    | file _ => cases place <;> cases h
    | directory held =>
      cases place with
      | nil =>
        cases h
        refine ⟨_, rfl, fun n hn => ?_⟩
        rw [lookup_putChild]
        split
        · rfl
        · exact hn
      | cons n place =>
        rw [put_directory, at?, child?, lookup_putChild]
        rw [at?, child?] at h
        simp only [at?, child?] at hfree
        by_cases hn : n = name
        · subst hn
          obtain ⟨t', ht', hplace⟩ := Option.bind_eq_some_iff.mp h
          simp only [if_true, ht', Option.getD_some, Option.bind_some] at hfree ⊢
          exact ih hfree hplace
        · rw [if_neg hn]
          exact ⟨entries, h, fun _ hm => hm⟩

end Tree

namespace Disk

variable {d d' : Disk} {path : Text}

/-- What is found at a path stands at some place of the tree. -/
theorem exists_place {t : Tree} (h : d.find path = .ok t) :
    ∃ place, d.locate path = .ok place ∧ d.at? place = some t := by
  rw [find] at h
  cases hlocate : d.locate path with
  | error e =>
    rw [hlocate] at h
    cases h
  | ok place =>
    simp only [hlocate, bind, Except.bind] at h
    cases hat : d.at? place with
    | none =>
      rw [hat] at h
      cases h
    | some u =>
      rw [hat] at h
      cases h
      exact ⟨place, rfl, hat⟩

theorem follow_append (d : Disk) (place xs ys : List Text) :
    d.follow place (xs ++ ys) = (d.follow place xs).bind (d.follow · ys) := by
  induction xs generalizing place with
  | nil => rfl
  | cons part xs ih =>
    simp only [List.cons_append, follow]
    split
    · split
      · exact ih _
      · split
        · exact ih _
        · split
          · rfl
          · split
            · exact ih _
            · rfl
    · rfl

/-- Where something is put in place of no directory, all paths lead where they led before. -/
theorem follow_put {names : List Text} {t : Tree}
    (hfree : ∀ entries, d.at? names ≠ some (.directory entries)) {place parts place' : List Text}
    (h : d.follow place parts = .ok place') : (d.put names t).follow place parts = .ok place' := by
  induction parts generalizing place with
  | nil => exact h
  | cons part parts ih =>
    rw [follow] at h ⊢
    split at h
    · rename_i entries hentries
      obtain ⟨entries', hentries', hkept⟩ := Tree.exists_directory_put (u := t) hfree hentries
      have hat : (d.put names t).at? place = some (.directory entries') := hentries'
      simp only [hat]
      by_cases hstay : part = [] ∨ part = ['.']
      · rw [if_pos hstay] at h ⊢
        exact ih h
      rw [if_neg hstay] at h ⊢
      by_cases hup : part = ['.', '.']
      · rw [if_pos hup] at h ⊢
        exact ih h
      rw [if_neg hup] at h ⊢
      by_cases hlong : maxNameBytes < Utf8.size part
      · rw [if_pos hlong] at h
        cases h
      rw [if_neg hlong] at h ⊢
      by_cases hname : (entries.lookup part).isSome
      · rw [if_pos hname] at h
        rw [if_pos (hkept part hname)]
        exact ih h
      · rw [if_neg hname] at h
        cases h
    · cases h

/-- The directory that holds the last part of a path is where the parts above it lead. -/
theorem exists_parts {place : List Text} {name : Text}
    (h : d.locateParent path = .ok (place, name)) :
    ∃ above entries, parts path = .ok (above ++ [name]) ∧
      d.follow (d.start path) above = .ok place ∧ d.at? place = some (.directory entries) := by
  rw [locateParent] at h
  cases hparts : parts path with
  | error e =>
    rw [hparts] at h
    cases h
  | ok all =>
    have hne : all ≠ [] := by
      rw [parts] at hparts
      split at hparts
      · cases hparts
      · split at hparts
        · cases hparts
        · cases hparts
          exact Text.splitAll_ne_nil _ _
    simp only [hparts, bind, Except.bind] at h
    cases hfollow : d.follow (d.start path) all.dropLast with
    | error e =>
      rw [hfollow] at h
      cases h
    | ok place' =>
      simp only [hfollow] at h
      split at h
      · rename_i entries hentries
        cases h
        refine ⟨all.dropLast, entries, ?_, hfollow, hentries⟩
        rw [List.getLast?_eq_some_getLast hne, Option.getD_some, List.dropLast_concat_getLast hne]
      · cases h

/-- What a write does: it puts a file below a directory, in place of no directory, under a name that
a path may end in. -/
theorem exists_of_write {content : Bytes} (h : d.write path content = .ok d') :
    ∃ place name, d.locateParent path = .ok (place, name) ∧
      (name ≠ [] ∧ name ≠ ['.'] ∧ name ≠ ['.', '.'] ∧ Utf8.size name ≤ maxNameBytes) ∧
      (∀ entries, d.at? (place ++ [name]) ≠ some (.directory entries)) ∧
      d' = d.put (place ++ [name]) (.file content) := by
  rw [write, writeWith] at h
  cases hparent : d.locateParent path with
  | error e =>
    rw [hparent] at h
    cases h
  | ok p =>
    obtain ⟨place, name⟩ := p
    simp only [hparent, bind, Except.bind] at h
    by_cases hname : name = [] ∨ name = ['.'] ∨ name = ['.', '.']
    · rw [if_pos hname] at h
      cases h
    rw [if_neg hname] at h
    by_cases hlong : maxNameBytes < Utf8.size name
    · rw [if_pos hlong] at h
      cases h
    rw [if_neg hlong] at h
    simp only [not_or] at hname
    have hvalid : name ≠ [] ∧ name ≠ ['.'] ∧ name ≠ ['.', '.'] ∧ Utf8.size name ≤ maxNameBytes :=
      ⟨hname.1, hname.2.1, hname.2.2, Nat.not_lt.mp hlong⟩
    refine ⟨place, name, rfl, hvalid, ?_⟩
    split at h
    · cases h
    · rename_i hat
      cases h
      exact ⟨by simp [hat], rfl⟩
    · rename_i hat
      cases h
      exact ⟨by simp [hat], rfl⟩

/-- What has been written at a path is read there. -/
theorem read_write {content : Bytes} (h : d.write path content = .ok d') :
    d'.read path = .ok content := by
  obtain ⟨place, name, hparent, ⟨hnil, hdot, hup, hlong⟩, hfree, rfl⟩ := exists_of_write h
  obtain ⟨above, entries, hparts, hfollow, hplace⟩ := exists_parts hparent
  obtain ⟨entries', hplace', -⟩ :=
    Tree.exists_directory_put (u := .file content) hfree hplace
  have hself : (d.put (place ++ [name]) (.file content)).at? (place ++ [name]) =
      some (.file content) := Tree.at?_put _ _ _
  have hlookup : entries'.lookup name = some (.file content) := by
    have hchild : (d.root.put (place ++ [name]) (.file content)).at? (place ++ [name]) =
        (entries'.lookup name).bind (·.at? []) := by
      rw [Tree.at?_append, hplace']
      rfl
    rw [Tree.at?_put] at hchild
    obtain ⟨t, ht, heq⟩ := Option.bind_eq_some_iff.mp hchild.symm
    cases heq
    exact ht
  have hlocate : (d.put (place ++ [name]) (.file content)).locate path = .ok (place ++ [name]) := by
    have hstart : (d.put (place ++ [name]) (.file content)).start path = d.start path := rfl
    rw [locate, hparts, hstart]
    simp only [bind, Except.bind]
    rw [follow_append, follow_put hfree hfollow]
    have hat : (d.put (place ++ [name]) (.file content)).at? place =
        some (.directory entries') := hplace'
    simp only [Except.bind, follow, hat, hnil, hdot, hup, Nat.not_lt.mpr hlong, hlookup, or_self,
      if_false, Option.isSome_some, if_true]
  simp only [read, find, hlocate, hself, bind, Except.bind]

end Disk
end FilterLine
