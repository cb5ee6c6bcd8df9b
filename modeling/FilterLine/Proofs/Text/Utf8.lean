import FilterLine.Text.Utf8

/-!
Decoding undoes encoding. The machine reads the bytes of one character from between characters back
to between characters, and emits exactly that character; a text is read character by character. Bytes
that stop inside a character are no text, so what is read in a start of a text's bytes is a start of
the text.
-/
namespace FilterLine.Utf8

theorem lead_two (n : Nat) (hl : 2 ≤ n) (hu : n < 32) :
    lead (n + 0xC0) = ([], some { bits := n, owed := 1 }) := by
  have h₁ : ¬ n + 0xC0 < 0x80 := by omega
  have h₂ : ¬ n + 0xC0 < 0xC2 := by omega
  have h₃ : n + 0xC0 < 0xE0 := by omega
  simp only [lead, h₁, h₂, h₃, if_true, if_false, Nat.add_sub_cancel]

/-- The bounds of the second byte keep out the numbers of shorter characters and the surrogates. -/
theorem lead_three (n : Nat) (hu : n < 16) :
    lead (n + 0xE0) =
      ([], some ⟨n, 2, if n = 0 then 0xA0 else 0x80, if n = 13 then 0x9F else 0xBF⟩) := by
  have hn : n = 0 ∨ n = 1 ∨ n = 2 ∨ n = 3 ∨ n = 4 ∨ n = 5 ∨ n = 6 ∨ n = 7 ∨ n = 8 ∨ n = 9 ∨
      n = 10 ∨ n = 11 ∨ n = 12 ∨ n = 13 ∨ n = 14 ∨ n = 15 := by omega
  rcases hn with rfl | rfl | rfl | rfl | rfl | rfl | rfl | rfl | rfl | rfl | rfl | rfl | rfl | rfl |
    rfl | rfl <;> rfl

/-- The bounds of the second byte keep out the numbers of shorter characters and those past the
last one. -/
theorem lead_four (n : Nat) (hu : n < 5) :
    lead (n + 0xF0) =
      ([], some ⟨n, 3, if n = 0 then 0x90 else 0x80, if n = 4 then 0x8F else 0xBF⟩) := by
  have hn : n = 0 ∨ n = 1 ∨ n = 2 ∨ n = 3 ∨ n = 4 := by omega
  rcases hn with rfl | rfl | rfl | rfl | rfl <;> rfl

/-- A byte inside a character that owes more than one is taken in. -/
theorem step_more (p : Partial) (m : Nat) (hl : p.low ≤ m + 0x80) (hu : m + 0x80 ≤ p.high)
    (ho : 1 < p.owed) :
    step (some p) (m + 0x80) = ([], some { bits := p.bits * 64 + m, owed := p.owed - 1 }) := by
  have h : ¬ p.owed ≤ 1 := by omega
  simp only [step, hl, hu, h, and_self, if_true, if_false, Nat.add_sub_cancel]

/-- The last byte that a character owes completes it. -/
theorem step_last (p : Partial) (m : Nat) (hl : p.low ≤ m + 0x80) (hu : m + 0x80 ≤ p.high)
    (ho : p.owed ≤ 1) :
    step (some p) (m + 0x80) = ([.char (Char.ofNat (p.bits * 64 + m))], none) := by
  simp only [step, hl, hu, ho, and_self, if_true, Nat.add_sub_cancel]

theorem run_cons (p : Option Partial) (n : Nat) (r : Bytes) (hn : n < 256) :
    run p (UInt8.ofNat n :: r) = (step p n).1 ++ run (step p n).2 r := by
  have h : (UInt8.ofNat n).toNat = n := by
    rw [UInt8.toNat_ofNat']
    omega
  cases p <;> simp only [run, h]

/-- The bytes of a character are read as that character. -/
theorem run_encodeChar (c : Char) (r : Bytes) :
    run none (String.utf8EncodeChar c ++ r) = .char c :: run none r := by
  obtain ⟨n, hn⟩ : ∃ n, n = c.val.toNat := ⟨_, rfl⟩
  have hc : Char.ofNat n = c := by rw [hn]; exact Char.ofNat_toNat c
  have hv : n < 0xD800 ∨ 0xDFFF < n ∧ n < 0x110000 := by rw [hn]; exact c.valid
  simp only [String.utf8EncodeChar, ← hn]
  by_cases h₁ : n ≤ 0x7F
  · have hl : lead n = ([.char (Char.ofNat n)], none) := by
      simp only [lead, show n < 0x80 by omega, if_true]
    simp only [h₁, if_true, List.cons_append, List.nil_append]
    rw [run_cons _ _ _ (by omega)]
    simp only [step, hl, hc, List.cons_append, List.nil_append]
  by_cases h₂ : n ≤ 0x7FF
  · simp only [h₁, h₂, if_true, if_false, List.cons_append, List.nil_append]
    rw [run_cons _ _ _ (by omega), step, lead_two _ (by omega) (by omega),
      run_cons _ _ _ (by omega), step_last _ _ (by simp) (by simp only; omega) (by simp)]
    have hb : n / 64 % 32 * 64 + n % 64 = n := by omega
    simp only [hb, hc, List.cons_append, List.nil_append]
  by_cases h₃ : n ≤ 0xFFFF
  · simp only [h₁, h₂, h₃, if_true, if_false, List.cons_append, List.nil_append]
    rw [run_cons _ _ _ (by omega), step, lead_three _ (by omega), run_cons _ _ _ (by omega),
      step_more _ _ (by simp only; split <;> omega) (by simp only; split <;> omega) (by simp),
      run_cons _ _ _ (by omega), step_last _ _ (by simp) (by simp only; omega) (by simp)]
    have hb : (n / 4096 % 16 * 64 + n / 64 % 64) * 64 + n % 64 = n := by omega
    simp only [hb, hc, List.cons_append, List.nil_append]
  · simp only [h₁, h₂, h₃, if_false, List.cons_append, List.nil_append]
    rw [run_cons _ _ _ (by omega), step, lead_four _ (by omega), run_cons _ _ _ (by omega),
      step_more _ _ (by simp only; split <;> omega) (by simp only; split <;> omega) (by simp),
      run_cons _ _ _ (by omega), step_more _ _ (by simp) (by simp only; omega) (by simp),
      run_cons _ _ _ (by omega), step_last _ _ (by simp) (by simp only; omega) (by simp)]
    have hb : ((n / 262144 % 8 * 64 + n / 4096 % 64) * 64 + n / 64 % 64) * 64 + n % 64 = n := by
      omega
    simp only [hb, hc, List.cons_append, List.nil_append]

/-- An encoded text is read as its characters. -/
theorem run_encode (t : Text) : run none (encode t) = t.map .char := by
  induction t with
  | nil => rfl
  | cons c t ih => rw [encode_cons, run_encodeChar, ih, List.map_cons]

/-- An encoded text is decoded. -/
theorem decode?_encode (t : Text) : decode? (encode t) = some t := by
  rw [decode?, run_encode]
  induction t with
  | nil => rfl
  | cons c t ih => simp [List.mapM_cons, ih]

/-! ### Bytes that are cut off -/

/-- A character of several bytes is begun by its first one, with the others owed. -/
theorem exists_lead (c : Char) : ∃ b r, String.utf8EncodeChar c = b :: r ∧
    (r = [] ∨ ∃ p, lead b.toNat = ([], some p) ∧ p.owed = r.length) := by
  have htoNat : ∀ n < 256, (UInt8.ofNat n).toNat = n := fun n hn => by
    rw [UInt8.toNat_ofNat']
    omega
  obtain ⟨n, hn⟩ : ∃ n, n = c.val.toNat := ⟨_, rfl⟩
  have hv : n < 0x110000 := by
    have hvalid : n < 0xD800 ∨ 0xDFFF < n ∧ n < 0x110000 := by rw [hn]; exact c.valid
    omega
  simp only [String.utf8EncodeChar, ← hn]
  by_cases h₁ : n ≤ 0x7F
  · simp only [h₁, if_true]
    exact ⟨_, _, rfl, .inl rfl⟩
  by_cases h₂ : n ≤ 0x7FF
  · have hlead := lead_two (n / 64 % 32) (by omega) (by omega)
    rw [← htoNat (n / 64 % 32 + 0xC0) (by omega)] at hlead
    simp only [h₁, h₂, if_true, if_false]
    exact ⟨_, _, rfl, .inr ⟨_, hlead, rfl⟩⟩
  by_cases h₃ : n ≤ 0xFFFF
  · have hlead := lead_three (n / 4096 % 16) (by omega)
    rw [← htoNat (n / 4096 % 16 + 0xE0) (by omega)] at hlead
    simp only [h₁, h₂, h₃, if_true, if_false]
    exact ⟨_, _, rfl, .inr ⟨_, hlead, rfl⟩⟩
  · have hlead := lead_four (n / 262144 % 8) (by omega)
    rw [← htoNat (n / 262144 % 8 + 0xF0) (by omega)] at hlead
    simp only [h₁, h₂, h₃, if_false]
    exact ⟨_, _, rfl, .inr ⟨_, hlead, rfl⟩⟩

/-- Fewer bytes than are owed leave a malformed piece. -/
theorem malformed_of_owed {p : Partial} {content : Bytes} (h : content.length < p.owed) :
    .malformed ∈ run (some p) content := by
  induction content generalizing p with
  | nil => simp [run]
  | cons b r ih =>
    rw [List.length_cons] at h
    rw [run, step]
    by_cases hb : p.low ≤ b.toNat ∧ b.toNat ≤ p.high
    · have howed : ¬ p.owed ≤ 1 := by omega
      simp only [if_pos hb, if_neg howed, List.nil_append]
      exact ih (by simp only; omega)
    · simp [if_neg hb]

/-- What holds a malformed piece is not decoded. -/
theorem decode?_eq_none {content : Bytes} (h : .malformed ∈ run none content) :
    decode? content = none := by
  rw [decode?]
  generalize run none content = pieces at h
  induction pieces with
  | nil => cases h
  | cons p pieces ih =>
    rw [List.mapM_cons]
    cases p with
    | malformed => rfl
    | char c => simp [ih (by simpa using h)]

theorem decode?_encodeChar (c : Char) (content : Bytes) :
    decode? (String.utf8EncodeChar c ++ content) = (decode? content).map (c :: ·) := by
  have hcons : decode? (String.utf8EncodeChar c ++ content) = (do
      let t ← decode? content
      some (c :: t)) := by
    rw [decode?, run_encodeChar, List.mapM_cons]
    rfl
  rw [hcons]
  cases decode? content <;> rfl

/-- Bytes that stop inside a character are no text. -/
theorem decode?_cut {c : Char} {content : Bytes} (h : content <+: String.utf8EncodeChar c)
    (hne : content ≠ []) (hlength : content.length < (String.utf8EncodeChar c).length) :
    decode? content = none := by
  obtain ⟨b, r, heq, howed⟩ := exists_lead c
  rw [heq] at h hlength
  obtain ⟨r', rfl, -⟩ : ∃ r', content = b :: r' ∧ r' <+: r := by
    cases content with
    | nil => exact absurd rfl hne
    | cons b' r' =>
      obtain ⟨rfl, hr⟩ := List.cons_prefix_cons.mp h
      exact ⟨r', rfl, hr⟩
  rw [List.length_cons, List.length_cons] at hlength
  rcases howed with rfl | ⟨p, hlead, hp⟩
  · simp at hlength
  · refine decode?_eq_none ?_
    rw [run, step, hlead]
    exact malformed_of_owed (by omega)

/-- What is read in the first bytes of a text is a start of the text, and all that is in them. -/
theorem prefix_of_decode? {t t' : Text} {content : Bytes} (h : content <+: encode t)
    (hdecode : decode? content = some t') : t' <+: t ∧ encode t' = content := by
  induction t generalizing content t' with
  | nil =>
    obtain rfl : content = [] := List.prefix_nil.mp h
    cases hdecode
    exact ⟨List.prefix_refl _, rfl⟩
  | cons c t ih =>
    rw [encode_cons] at h
    have hchar : String.utf8EncodeChar c <+: String.utf8EncodeChar c ++ encode t :=
      List.prefix_append ..
    by_cases hlength : content.length < (String.utf8EncodeChar c).length
    · have hcut := List.prefix_of_prefix_length_le h hchar (Nat.le_of_lt hlength)
      by_cases hne : content = []
      · subst hne
        cases hdecode
        exact ⟨List.nil_prefix, rfl⟩
      · rw [decode?_cut hcut hne hlength] at hdecode
        cases hdecode
    · obtain ⟨content', rfl⟩ := List.prefix_of_prefix_length_le hchar h (Nat.not_lt.mp hlength)
      rw [decode?_encodeChar] at hdecode
      obtain ⟨t'', ht'', rfl⟩ := Option.map_eq_some_iff.mp hdecode
      obtain ⟨hinit, hencode⟩ := ih ((List.prefix_append_right_inj _).mp h) ht''
      refine ⟨List.cons_prefix_cons.mpr ⟨rfl, hinit⟩, ?_⟩
      rw [← hencode, encode_cons]

end FilterLine.Utf8
