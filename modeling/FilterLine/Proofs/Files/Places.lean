import FilterLine.Proofs.Files.Disk
import FilterLine.Proofs.Text.Splitting

/-!
The way into a directory. Behind a path that leads to a directory, the name of one of its entries and
a slash lead to where that entry stands, and so do the links of the directory to itself and to the one
above.
-/
namespace FilterLine

open Text

structure Text.NamesEntry (t : Text) : Prop where
  ne_nil : t ≠ []
  slash : '/' ∉ t
  nul : '\x00' ∉ t
  short : Utf8.size t ≤ Disk.maxNameBytes

instance (t : Text) : Decidable t.NamesEntry :=
  decidable_of_iff (t ≠ [] ∧ '/' ∉ t ∧ '\x00' ∉ t ∧ Utf8.size t ≤ Disk.maxNameBytes)
    ⟨fun h => ⟨h.1, h.2.1, h.2.2.1, h.2.2.2⟩, fun h => ⟨h.ne_nil, h.slash, h.nul, h.short⟩⟩

namespace Disk

variable {d : Disk} {place : List Text} {path name : Text} {t : Tree}
  {held inner : List (Text × Tree)}

def inside (place : List Text) (name : Text) : List Text :=
  if name = ['.'] then place else if name = ['.', '.'] then place.dropLast else place ++ [name]

/-- A name leads from a directory to the entry of that name. -/
theorem at?_concat (hat : d.at? place = some (.directory held)) (name : Text) :
    d.at? (place ++ [name]) = held.lookup name := by
  have hroot : d.root.at? place = some (.directory held) := hat
  rw [at?, Tree.at?_append, hroot]
  exact Option.bind_fun_some (held.lookup name)

/-- Above a directory stands a directory; the root is above itself. -/
theorem exists_above (hat : d.at? place = some (.directory held)) :
    ∃ above, d.at? place.dropLast = some (.directory above) := by
  obtain rfl | ⟨front, last, rfl⟩ := List.eq_nil_or_concat place
  · exact ⟨held, hat⟩
  · rw [List.concat_eq_append, at?, Tree.at?_append] at hat
    rw [List.concat_eq_append, List.dropLast_concat]
    obtain ⟨t, ht, hlast⟩ := Option.bind_eq_some_iff.mp hat
    cases t with
    | file content => cases hlast
    | directory above => exact ⟨above, ht⟩

/-- A name moves from a directory to where it stands. -/
theorem follow_inside (hat : d.at? place = some (.directory held)) (hname : name.NamesEntry)
    (ht : d.at? (inside place name) = some t) (parts : List Text) :
    d.follow place (name :: parts) = d.follow (inside place name) parts := by
  rw [follow, hat]
  simp only
  by_cases hself : name = ['.']
  · rw [if_pos (.inr hself), inside, if_pos hself]
  rw [if_neg (not_or.mpr ⟨hname.ne_nil, hself⟩)]
  by_cases hup : name = ['.', '.']
  · rw [if_pos hup, inside, if_neg hself, if_pos hup]
  rw [if_neg hup, if_neg (Nat.not_lt.mpr hname.short)]
  rw [inside, if_neg hself, if_neg hup] at ht ⊢
  rw [at?_concat hat] at ht
  rw [if_pos (Option.isSome_of_eq_some ht)]

/-- A slash at the end stays at a directory. -/
theorem follow_slash (hat : d.at? place = some (.directory held)) :
    d.follow place [[]] = .ok place := by
  rw [follow, hat]
  rfl

theorem eq_of_follow_slash {place' : List Text} (h : d.follow place [[]] = .ok place') :
    place' = place := by
  rw [follow] at h
  split at h
  · cases h
    rfl
  · cases h

/-- A path leads where the pieces between its slashes lead. -/
theorem locate_eq (hnul : '\x00' ∉ path) (hne : path ≠ []) :
    d.locate path = d.follow (d.start path) (splitAll '/' path) := by
  rw [locate, parts, if_neg hnul, if_neg hne]
  rfl

theorem not_nul_of_locate (h : d.locate path = .ok place) : '\x00' ∉ path := by
  intro hmem
  rw [locate, parts, if_pos hmem] at h
  cases h

theorem find_of_locate (hlocate : d.locate path = .ok place) (hat : d.at? place = some t) :
    d.find path = .ok t := by
  simp only [find, hlocate, hat, bind, Except.bind]

theorem splitAll_slash (hname : name.NamesEntry) : splitAll '/' (name ++ ['/']) = [name, []] := by
  rw [splitAll_append_cons_self, splitAll_of_not_mem hname.slash]
  rfl

/-- Behind a path with a slash at its end, a name and a slash lead to where the name stands. -/
theorem find_inside (hlocate : d.locate (path ++ ['/']) = .ok place)
    (hat : d.at? place = some (.directory held)) (hname : name.NamesEntry)
    (ht : d.at? (inside place name) = some (.directory inner)) :
    d.find (path ++ ['/'] ++ name ++ ['/']) = .ok (.directory inner) := by
  have hnul := not_nul_of_locate hlocate
  have hfollow : d.follow (d.start (path ++ ['/'])) (splitAll '/' path) = .ok place := by
    rw [locate_eq hnul (by simp), splitAll_append_cons_self, follow_append] at hlocate
    cases hfront : d.follow (d.start (path ++ ['/'])) (splitAll '/' path) with
    | error e =>
      rw [hfront] at hlocate
      cases hlocate
    | ok place' =>
      rw [hfront] at hlocate
      rw [eq_of_follow_slash hlocate]
  have hstart : d.start (path ++ ['/'] ++ name ++ ['/']) = d.start (path ++ ['/']) := by
    cases path <;> rfl
  have hpath : path ++ ['/'] ++ name ++ ['/'] = path ++ '/' :: (name ++ ['/']) := by simp
  apply find_of_locate _ ht
  rw [locate_eq _ (by simp), hstart, hpath, splitAll_append_cons_self, splitAll_slash hname,
    follow_append, hfollow]
  · exact (follow_inside hat hname ht _).trans (follow_slash ht)
  · simp only [List.mem_append, not_or] at hnul ⊢
    exact ⟨⟨hnul, hname.nul⟩, by decide⟩

/-- A name and a slash lead from the working directory to where the name stands. -/
theorem find_inside_here (hat : d.at? d.here = some (.directory held)) (hname : name.NamesEntry)
    (ht : d.at? (inside d.here name) = some (.directory inner)) :
    d.find (name ++ ['/']) = .ok (.directory inner) := by
  have hstart : d.start (name ++ ['/']) = d.here := by
    obtain ⟨c, rest, rfl⟩ := List.exists_cons_of_ne_nil hname.ne_nil
    have hc : c ≠ '/' := (List.ne_of_not_mem_cons hname.slash).symm
    simp [start, hc]
  apply find_of_locate _ ht
  rw [locate_eq _ (by simp), hstart, splitAll_slash hname, follow_inside hat hname ht,
    follow_slash ht]
  simp [hname.nul]

theorem locate_dot (hfind : d.find ['.'] = .ok (.directory held)) :
    d.locate ['.'] = .ok d.here ∧ d.at? d.here = some (.directory held) := by
  obtain ⟨place, hlocate, hat⟩ := exists_place hfind
  have hplace : d.follow d.here [['.']] = .ok place := by
    rwa [locate_eq (by decide) (by decide)] at hlocate
  rw [follow] at hplace
  split at hplace
  · cases hplace
    exact ⟨hlocate, hat⟩
  · cases hplace

/-- The listed directory of a request and an entry in it: what the path of both, with a slash behind
it, leads to. -/
theorem find_within {directory : Text} (hslash : directory = [] ∨ endsIn '/' directory = true)
    (hfind : d.find (if directory = [] then ['.'] else directory) = .ok (.directory held)) :
    ∃ place, d.locate (if directory = [] then ['.'] else directory) = .ok place ∧
      d.at? place = some (.directory held) ∧
      ∀ name inner, name.NamesEntry → d.at? (inside place name) = some (.directory inner) →
        d.find (directory ++ name ++ ['/']) = .ok (.directory inner) := by
  by_cases hnil : directory = []
  · subst hnil
    obtain ⟨hlocate, hat⟩ := locate_dot hfind
    exact ⟨d.here, hlocate, hat, fun name inner => find_inside_here hat⟩
  · rw [if_neg hnil] at hfind ⊢
    obtain ⟨path, rfl⟩ : ∃ path, directory = path ++ ['/'] :=
      List.getLast?_eq_some_iff.mp (eq_of_beq (hslash.resolve_left hnil))
    obtain ⟨place, hlocate, hat⟩ := exists_place hfind
    exact ⟨place, hlocate, hat, fun name inner => find_inside hlocate hat⟩

end Disk
end FilterLine
