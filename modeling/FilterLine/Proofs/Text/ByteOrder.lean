import FilterLine.Text.Utf8

/-!
The order of texts is that of their bytes. The first byte of a character tells how many there are, and
characters of more bytes come later; among those of equally many the groups of bits decide, the highest
first.
-/
namespace FilterLine.Utf8

/-- Bytes are compared by the first one, and then by what follows. -/
theorem bytes_lt {x y : Nat} {u v : Bytes} (hx : x < 256) (hy : y < 256)
    (h : x < y ∨ x = y ∧ u < v) : UInt8.ofNat x :: u < UInt8.ofNat y :: v := by
  have htoNat : ∀ n < 256, (UInt8.ofNat n).toNat = n := fun n hn => by
    rw [UInt8.toNat_ofNat']
    omega
  rw [List.cons_lt_cons_iff]
  apply h.imp
  · intro hlt
    rw [UInt8.lt_iff_toNat_lt, htoNat x hx, htoNat y hy]
    exact hlt
  · exact And.imp_left fun heq => by rw [heq]

/-- The first byte lies in one of four ranges, one for each number of bytes. -/
theorem exists_first (c : Char) : ∃ b r, String.utf8EncodeChar c = UInt8.ofNat b :: r ∧ b < 256 ∧
    (b < 0x80 ↔ c.toNat < 0x80) ∧ (b < 0xE0 ↔ c.toNat < 0x800) ∧
      (b < 0xF0 ↔ c.toNat < 0x10000) := by
  obtain ⟨n, hn⟩ : ∃ n, n = c.val.toNat := ⟨_, rfl⟩
  have hvalid : n < 0x110000 := by
    have hc : n < 0xD800 ∨ 0xDFFF < n ∧ n < 0x110000 := by rw [hn]; exact c.valid
    omega
  have htoNat : c.toNat = n := hn.symm
  simp only [String.utf8EncodeChar, ← hn, htoNat]
  by_cases h₁ : n ≤ 0x7F
  · simp only [h₁, if_true]
    exact ⟨_, _, rfl, by omega, by omega, by omega, by omega⟩
  by_cases h₂ : n ≤ 0x7FF
  · simp only [h₁, h₂, if_true, if_false]
    exact ⟨_, _, rfl, by omega, by omega, by omega, by omega⟩
  by_cases h₃ : n ≤ 0xFFFF
  · simp only [h₁, h₂, h₃, if_true, if_false]
    exact ⟨_, _, rfl, by omega, by omega, by omega, by omega⟩
  · simp only [h₁, h₂, h₃, if_false]
    exact ⟨_, _, rfl, by omega, by omega, by omega, by omega⟩

section Groups

variable {n m : Nat} (u v : Bytes)

/-- Numbers in two groups of bits are ordered as their bytes are. -/
theorem groups_two (h : n / 64 % 32 < m / 64 % 32 ∨ n / 64 % 32 = m / 64 % 32 ∧ n % 64 < m % 64) :
    UInt8.ofNat (n / 64 % 32 + 0xC0) :: UInt8.ofNat (n % 64 + 0x80) :: u <
      UInt8.ofNat (m / 64 % 32 + 0xC0) :: UInt8.ofNat (m % 64 + 0x80) :: v := by
  apply bytes_lt (by omega) (by omega)
  apply h.imp (by omega)
  rintro ⟨heq, hlt⟩
  exact ⟨by omega, bytes_lt (by omega) (by omega) (.inl (by omega))⟩

/-- The two groups of six bits at the end, which characters of three and of four bytes have. -/
theorem groups_last (h : n / 64 % 64 < m / 64 % 64 ∨ n / 64 % 64 = m / 64 % 64 ∧ n % 64 < m % 64) :
    UInt8.ofNat (n / 64 % 64 + 0x80) :: UInt8.ofNat (n % 64 + 0x80) :: u <
      UInt8.ofNat (m / 64 % 64 + 0x80) :: UInt8.ofNat (m % 64 + 0x80) :: v := by
  apply bytes_lt (by omega) (by omega)
  apply h.imp (by omega)
  rintro ⟨heq, hlt⟩
  exact ⟨by omega, bytes_lt (by omega) (by omega) (.inl (by omega))⟩

theorem digits_last (h : n % 4096 < m % 4096) :
    n / 64 % 64 < m / 64 % 64 ∨ n / 64 % 64 = m / 64 % 64 ∧ n % 64 < m % 64 := by
  omega

/-- Numbers in three groups of bits are ordered as their bytes are. -/
theorem groups_three (hn : n < 0x10000) (hm : m < 0x10000) (h : n < m) :
    UInt8.ofNat (n / 4096 % 16 + 0xE0) :: UInt8.ofNat (n / 64 % 64 + 0x80) ::
        UInt8.ofNat (n % 64 + 0x80) :: u <
      UInt8.ofNat (m / 4096 % 16 + 0xE0) :: UInt8.ofNat (m / 64 % 64 + 0x80) ::
        UInt8.ofNat (m % 64 + 0x80) :: v := by
  have hfirst : n / 4096 < m / 4096 ∨ n / 4096 = m / 4096 ∧ n % 4096 < m % 4096 := by omega
  apply bytes_lt (by omega) (by omega)
  apply hfirst.imp (by omega)
  rintro ⟨heq, hlt⟩
  exact ⟨by omega, groups_last u v (digits_last hlt)⟩

/-- Numbers in four groups of bits are ordered as their bytes are. -/
theorem groups_four (hn : n < 0x110000) (hm : m < 0x110000) (h : n < m) :
    UInt8.ofNat (n / 262144 % 8 + 0xF0) :: UInt8.ofNat (n / 4096 % 64 + 0x80) ::
        UInt8.ofNat (n / 64 % 64 + 0x80) :: UInt8.ofNat (n % 64 + 0x80) :: u <
      UInt8.ofNat (m / 262144 % 8 + 0xF0) :: UInt8.ofNat (m / 4096 % 64 + 0x80) ::
        UInt8.ofNat (m / 64 % 64 + 0x80) :: UInt8.ofNat (m % 64 + 0x80) :: v := by
  have hfirst : n / 262144 < m / 262144 ∨ n / 262144 = m / 262144 ∧ n % 262144 < m % 262144 := by
    omega
  apply bytes_lt (by omega) (by omega)
  apply hfirst.imp (by omega)
  rintro ⟨heq, hlt⟩
  have hsecond : n / 4096 % 64 < m / 4096 % 64 ∨
      n / 4096 % 64 = m / 4096 % 64 ∧ n % 4096 < m % 4096 := by omega
  refine ⟨by omega, bytes_lt (by omega) (by omega) (hsecond.imp (by omega) ?_)⟩
  rintro ⟨heq', hlt'⟩
  exact ⟨by omega, groups_last u v (digits_last hlt')⟩

end Groups

/-- The bytes of a smaller character come first, whatever follows either. -/
theorem encodeChar_lt {c d : Char} (h : c.toNat < d.toNat) (u v : Bytes) :
    String.utf8EncodeChar c ++ u < String.utf8EncodeChar d ++ v := by
  by_cases hsize : (c.toNat < 0x80 ↔ d.toNat < 0x80) ∧ (c.toNat < 0x800 ↔ d.toNat < 0x800) ∧
      (c.toNat < 0x10000 ↔ d.toNat < 0x10000)
  · obtain ⟨n, hn⟩ : ∃ n, n = c.val.toNat := ⟨_, rfl⟩
    obtain ⟨m, hm⟩ : ∃ m, m = d.val.toNat := ⟨_, rfl⟩
    have hvalid : m < 0x110000 := by
      have hd : m < 0xD800 ∨ 0xDFFF < m ∧ m < 0x110000 := by rw [hm]; exact d.valid
      omega
    have hlt : n < m := by rw [hn, hm]; exact h
    have hcn : c.toNat = n := hn.symm
    have hdm : d.toNat = m := hm.symm
    rw [hcn, hdm] at hsize
    simp only [String.utf8EncodeChar, ← hn, ← hm]
    by_cases h₁ : n ≤ 0x7F
    · have h₁' : m ≤ 0x7F := by omega
      simp only [h₁, h₁', if_true, List.cons_append, List.nil_append]
      exact bytes_lt (by omega) (by omega) (.inl (by omega))
    have h₁' : ¬ m ≤ 0x7F := by omega
    by_cases h₂ : n ≤ 0x7FF
    · have h₂' : m ≤ 0x7FF := by omega
      simp only [h₁, h₁', h₂, h₂', if_true, if_false, List.cons_append, List.nil_append]
      exact groups_two u v (by omega)
    have h₂' : ¬ m ≤ 0x7FF := by omega
    by_cases h₃ : n ≤ 0xFFFF
    · have h₃' : m ≤ 0xFFFF := by omega
      simp only [h₁, h₁', h₂, h₂', h₃, h₃', if_true, if_false, List.cons_append, List.nil_append]
      exact groups_three u v (by omega) (by omega) hlt
    · have h₃' : ¬ m ≤ 0xFFFF := by omega
      simp only [h₁, h₁', h₂, h₂', h₃, h₃', if_false, List.cons_append, List.nil_append]
      exact groups_four u v (by omega) hvalid hlt
  · obtain ⟨b, r, hb, hb256, hb₁, hb₂, hb₃⟩ := exists_first c
    obtain ⟨b', r', hb', hb256', hb₁', hb₂', hb₃'⟩ := exists_first d
    rw [hb, hb', List.cons_append, List.cons_append]
    exact bytes_lt hb256 hb256' (.inl (by omega))

/-- Texts are ordered as their bytes are. -/
theorem encode_lt {s t : Text} (h : s < t) : encode s < encode t := by
  induction h with
  | nil =>
    rw [encode_cons]
    obtain ⟨b, r, hb, -⟩ := exists_first _
    rw [hb]
    exact List.nil_lt_cons _ _
  | rel hlt =>
    rw [encode_cons, encode_cons]
    exact encodeChar_lt hlt _ _
  | cons _ ih =>
    rw [encode_cons, encode_cons]
    exact List.append_left_lt ih

end FilterLine.Utf8
