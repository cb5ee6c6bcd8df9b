import FilterLine.Proofs.Completion.PathListing

/-!
Collapsing the home directory. When `~` has been replaced, the path of a candidate is cut at the
length in bytes of the home directory that stood in for it. The slash that was typed behind `~` stands
behind that home directory, and the last slash, where the directory to list ends, is that one or a
later one: the cut lies in the path, between two characters, and in front of a slash.
-/
namespace FilterLine

open Text

namespace Utf8

/-- The text behind the first bytes of a text. There is none where the text has fewer bytes, or
where a character is cut in half. -/
def sliceFrom? : (count : Nat) → Text → Option Text
  | 0, t => some t
  | _ + 1, [] => none
  | n + 1, c :: t => if c.utf8Size ≤ n + 1 then sliceFrom? (n + 1 - c.utf8Size) t else none

/-- The length of a text in bytes is that of its encoding. -/
theorem length_encode (t : Text) : (encode t).length = size t := by
  induction t with
  | nil => rfl
  | cons c t ih =>
    rw [encode_cons, List.length_append, String.length_utf8EncodeChar, ih, size]

/-- A slice begins behind whole characters, and every such place is the beginning of one. -/
theorem sliceFrom?_eq_some {n : Nat} {t r : Text} :
    sliceFrom? n t = some r ↔ ∃ front, t = front ++ r ∧ size front = n := by
  induction t generalizing n with
  | nil =>
    cases n with
    | zero => simp [sliceFrom?, size, eq_comm]
    | succ n =>
      constructor
      · intro h
        simp [sliceFrom?] at h
      · rintro ⟨front, hnil, hsize⟩
        obtain ⟨rfl, -⟩ := List.append_eq_nil_iff.mp hnil.symm
        simp [size] at hsize
  | cons c t ih =>
    have hpos := c.utf8Size_pos
    cases n with
    | zero =>
      constructor
      · intro h
        exact ⟨[], by simpa [sliceFrom?] using h, rfl⟩
      · rintro ⟨front, hfront, hsize⟩
        cases front with
        | nil => exact congrArg some hfront
        | cons d front =>
          have hd := d.utf8Size_pos
          rw [size] at hsize
          omega
    | succ n =>
      rw [sliceFrom?]
      constructor
      · intro h
        split at h
        · obtain ⟨front, rfl, hsize⟩ := ih.mp h
          refine ⟨c :: front, rfl, ?_⟩
          rw [size]
          omega
        · cases h
      · rintro ⟨front, hfront, hsize⟩
        cases front with
        | nil => simp [size] at hsize
        | cons d front =>
          obtain ⟨rfl, rfl⟩ := List.cons_eq_cons.mp hfront
          rw [size] at hsize
          rw [if_pos (by omega)]
          exact ih.mpr ⟨front, rfl, by omega⟩

end Utf8

namespace Paths

variable {home : Option Text} {t start h : Text}

/-- A home directory is reported, without slashes at its end, for `~` alone and for what begins
with `~/`. -/
theorem expandTilde_reports : (expandTilde home t).2 = some h ↔
    ∃ k, home = some k ∧ trimEndWhile (· == '/') k = h ∧
      (t = ['~'] ∨ ∃ r, t = '~' :: '/' :: r) := by
  constructor
  · intro hreport
    unfold expandTilde at hreport
    split at hreport
    · exact ⟨_, rfl, Option.some_inj.mp hreport, .inl rfl⟩
    · exact ⟨_, rfl, Option.some_inj.mp hreport, .inr ⟨_, rfl⟩⟩
    · cases hreport
  · rintro ⟨k, rfl, rfl, rfl | ⟨r, rfl⟩⟩ <;> rfl

/-- The last slash of a text that begins with `~/` is that one or a later one. -/
theorem cutAfterLast_tilde (r : Text) :
    ∃ z, (cutAfterLast '/' ('~' :: '/' :: r)).1 = '~' :: '/' :: z := by
  by_cases hmem : '/' ∈ r
  · have hcut := congrArg Prod.fst (cutAfterLast_append_of_mem (s := ['~', '/']) hmem)
    exact ⟨_, hcut⟩
  · have hcut := congrArg Prod.fst (cutAfterLast_append_cons (a := ['~']) hmem)
    exact ⟨[], hcut⟩

/-- When the home directory is reported the directory was typed with a tilde. -/
theorem typedDirectory_tilde (hreport : (expandTilde home (unescape start)).2 = some h) :
    ∃ z, typedDirectory home start = '~' :: '/' :: z := by
  obtain ⟨k, rfl, -, htilde⟩ := expandTilde_reports.mp hreport
  rw [typedDirectory]
  rcases htilde with hlone | ⟨r, hr⟩
  · exact ⟨[], by rw [hlone]; rfl⟩
  · rw [hr, if_neg (by simp)]
    exact cutAfterLast_tilde r

/-- Whenever `~` has been replaced by a home directory, the path of every entry begins with that
home directory and a slash. So the slice at the length of the home directory is in range and begins
with a whole character, the slash, and the entry is shown as `~` and the slice. -/
theorem home_collapsed (hreport : (expandTilde home (unescape start)).2 = some h) (e : Entry) :
    ∃ rest, (Request.ofStart home start).directory ++ e.name = h ++ '/' :: rest ∧
      Utf8.sliceFrom? (Utf8.encode h).length ((Request.ofStart home start).directory ++ e.name) =
        some ('/' :: rest) ∧
      (Request.ofStart home start).render e =
        escape ('~' :: '/' :: rest) ++ [if e.isDirectory then '/' else ' '] := by
  obtain ⟨z, hz⟩ := typedDirectory_tilde hreport
  obtain ⟨hdirectory, hrender⟩ := render_ofStart home start e
  obtain ⟨k, rfl, rfl, -⟩ := expandTilde_reports.mp hreport
  have hpath : (Request.ofStart (some k) start).directory ++ e.name =
      trimEndWhile (· == '/') k ++ '/' :: (z ++ e.name) := by
    rw [hdirectory, hz, expandTilde, List.append_assoc, List.cons_append]
  refine ⟨z ++ e.name, hpath, ?_, ?_⟩
  · rw [hpath, Utf8.length_encode]
    exact Utf8.sliceFrom?_eq_some.mpr ⟨_, rfl, rfl⟩
  · rw [hrender, hz]
    rfl

/-- A home directory with characters of several bytes and slashes at its end. -/
theorem home_collapsed_umlaut :
    (expandTilde (some "/höme//") (unescape "~/für\\ mi")).2 = some ("/höme" : Text) ∧
      ∃ rest, (Request.ofStart (some "/höme//") "~/für\\ mi").directory ++ "für mich" =
          ("/höme" : Text) ++ '/' :: rest ∧
        Utf8.sliceFrom? (Utf8.encode "/höme").length
          ((Request.ofStart (some "/höme//") "~/für\\ mi").directory ++ "für mich") =
            some ('/' :: rest) ∧
        (Request.ofStart (some "/höme//") "~/für\\ mi").render ⟨"für mich", true⟩ =
          escape ('~' :: '/' :: rest) ++ ['/'] :=
  ⟨rfl, home_collapsed rfl ⟨"für mich", true⟩⟩

end Paths
end FilterLine
