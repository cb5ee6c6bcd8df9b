import FilterLine.Json.Reader

/-!
The texts that write JSON values. A value has many texts: blanks may stand between tokens, and a
character of a string may be written as itself or as an escape. The relation is a grammar and knows
nothing of the reader; the main statement is that the reader takes every text of a value for that
value, whatever follows it.
-/
namespace FilterLine.Json

def Gap (g : Text) : Prop := ∀ c ∈ g, isGap c = true

/-- The texts that spell the units of a string, without the quotes around it. -/
inductive Spells : Text → List CodeUnit → Prop where
  | nil : Spells [] []
  | plain {c : Char} {t : Text} {us : List CodeUnit} :
      c ≠ '"' → c ≠ '\\' → 0x20 ≤ c.toNat → Spells t us → Spells (c :: t) (.char c :: us)
  | escape {e c : Char} {t : Text} {us : List CodeUnit} :
      escaped? e = some c → Spells t us → Spells ('\\' :: e :: t) (.char c :: us)
  | unicode {a b c d : Char} {u : CodeUnit} {t : Text} {us : List CodeUnit} :
      hexUnit? a b c d = some u → Spells t us →
      Spells ('\\' :: 'u' :: a :: b :: c :: d :: t) (u :: us)

def Digits (t : Text) : Prop := t ≠ [] ∧ ∀ c ∈ t, isDigit c = true

/-- The texts of numbers: a sign, digits without a leading zero, a fraction and an exponent, of
which only the digits must be there. -/
inductive Numeral : Text → Prop where
  | mk {sign whole fraction exponent : Text} :
      sign = [] ∨ sign = ['-'] →
      whole = ['0'] ∨ (Digits whole ∧ whole.head? ≠ some '0') →
      fraction = [] ∨ (∃ ds, Digits ds ∧ fraction = '.' :: ds) →
      exponent = [] ∨ (∃ e s ds, (e = 'e' ∨ e = 'E') ∧ (s = [] ∨ s = ['+'] ∨ s = ['-']) ∧
        Digits ds ∧ exponent = e :: (s ++ ds)) →
      Numeral (sign ++ whole ++ fraction ++ exponent)

/-- The parts of a JSON text: a value, the items of an array up to its bracket, and the entries of
an object up to its brace. -/
inductive Node where
  | value (j : Json)
  | items (js : List Json)
  | entries (es : List (Option Text × Json))

/-- The texts of each part. Blanks in front of a value belong to what surrounds it. -/
inductive Writes : Text → Node → Prop where
  | nullWord : Writes ['n', 'u', 'l', 'l'] (.value .null)
  | trueWord : Writes ['t', 'r', 'u', 'e'] (.value (.bool true))
  | falseWord : Writes ['f', 'a', 'l', 's', 'e'] (.value (.bool false))
  | number {t : Text} : Numeral t → Writes t (.value (.number t))
  | string {t : Text} {us : List CodeUnit} :
      Spells t us → Writes ('"' :: (t ++ ['"'])) (.value (.string (spell us)))
  | emptyArray {g : Text} : Gap g → Writes ('[' :: (g ++ [']'])) (.value (.array []))
  | array {t : Text} {js : List Json} :
      Writes t (.items js) → Writes ('[' :: t) (.value (.array js))
  | emptyObject {g : Text} : Gap g → Writes ('\x7b' :: (g ++ ['\x7d'])) (.value (.object []))
  | object {t : Text} {es : List (Option Text × Json)} :
      Writes t (.entries es) → Writes ('\x7b' :: t) (.value (.object es))
  | lastItem {g t g' : Text} {j : Json} : Gap g → Gap g' → Writes t (.value j) →
      Writes (g ++ (t ++ (g' ++ [']']))) (.items [j])
  | item {g t g' r : Text} {j : Json} {js : List Json} : Gap g → Gap g' → Writes t (.value j) →
      Writes r (.items js) → Writes (g ++ (t ++ (g' ++ ',' :: r))) (.items (j :: js))
  | lastEntry {g k g₁ g₂ t g₃ : Text} {us : List CodeUnit} {j : Json} :
      Gap g → Spells k us → Gap g₁ → Gap g₂ → Writes t (.value j) → Gap g₃ →
      Writes (g ++ '"' :: (k ++ '"' :: (g₁ ++ ':' :: (g₂ ++ (t ++ (g₃ ++ ['\x7d']))))))
        (.entries [(spell us, j)])
  | entry {g k g₁ g₂ t g₃ r : Text} {us : List CodeUnit} {j : Json}
      {es : List (Option Text × Json)} :
      Gap g → Spells k us → Gap g₁ → Gap g₂ → Writes t (.value j) → Gap g₃ →
      Writes r (.entries es) →
      Writes (g ++ '"' :: (k ++ '"' :: (g₁ ++ ':' :: (g₂ ++ (t ++ (g₃ ++ ',' :: r))))))
        (.entries ((spell us, j) :: es))

/-- Whether a text cannot continue a number. -/
def Ends : Text → Prop
  | [] => True
  | c :: _ => isDigit c = false ∧ c ≠ '.' ∧ c ≠ 'e' ∧ c ≠ 'E'

theorem gap_nil : Gap [] := by simp [Gap]

theorem skipGap_append {g : Text} (hg : Gap g) (t : Text) : skipGap (g ++ t) = skipGap t := by
  rw [skipGap, skipGap, List.dropWhile_append_of_pos hg]

/-- What is no blank is not dropped. -/
theorem skipGap_cons {c : Char} (hc : isGap c = false) (t : Text) : skipGap (c :: t) = c :: t := by
  simp [skipGap, hc]

/-- Blanks end a number, or what stands behind them does. -/
theorem ends_gap {g t : Text} (hg : Gap g) (ht : Ends t) : Ends (g ++ t) := by
  cases g with
  | nil => exact ht
  | cons c g =>
    have hc : isGap c = true := hg c (by simp)
    simp only [isGap, Bool.or_eq_true, decide_eq_true_eq] at hc
    rcases hc with ((rfl | rfl) | rfl) | rfl <;> simp [Ends, isDigit]

/-! ### Strings -/

/-- An escape is read as the character that it stands for. -/
theorem readUnits_escape {e c : Char} (he : escaped? e = some c) (t : Text) :
    readUnits ('\\' :: e :: t) = (readUnits t).map fun p => (.char c :: p.1, p.2) := by
  rw [readUnits]
  · rw [he]
    cases readUnits t <;> rfl
  · rintro a b c' d r rfl
    simp [escaped?] at he

/-- Any other character from the space on is read as itself. -/
theorem readUnits_plain {c : Char} (hq : c ≠ '"') (hb : c ≠ '\\') (hc : 0x20 ≤ c.toNat) (t : Text) :
    readUnits (c :: t) = (readUnits t).map fun p => (.char c :: p.1, p.2) := by
  rw [readUnits]
  · have h : ¬ (c = '\\' ∨ c.toNat < 0x20) := by
      rintro (h | h)
      · exact hb h
      · omega
    rw [if_neg h]
    cases readUnits t <;> rfl
  · exact hq
  · rintro a b c' d r rfl
    exact absurd rfl hb
  · rintro e r rfl
    exact absurd rfl hb

/-- The units of a string are read up to its closing quote, whatever follows. -/
theorem readUnits_spells {t : Text} {us : List CodeUnit} (h : Spells t us) (rest : Text) :
    readUnits (t ++ '"' :: rest) = some (us, rest) := by
  induction h with
  | nil => rfl
  | plain hq hb hc _ ih =>
    rw [List.cons_append, readUnits_plain hq hb hc, ih]
    rfl
  | escape he _ ih =>
    rw [List.cons_append, List.cons_append, readUnits_escape he, ih]
    rfl
  | unicode hu _ ih =>
    simp only [List.cons_append, readUnits, hu, ih]
    rfl

theorem readString_spells {t : Text} {us : List CodeUnit} (h : Spells t us) (rest : Text) :
    readString (t ++ '"' :: rest) = some (spell us, rest) := by
  rw [readString, readUnits_spells h]
  rfl

/-! ### Numbers -/

def StopsDigits (t : Text) : Prop := ∀ c ∈ t.head?, isDigit c = false

/-- What cannot continue a number does not begin with a digit. -/
theorem Ends.stopsDigits {t : Text} (h : Ends t) : StopsDigits t := by
  cases t with
  | nil => simp [StopsDigits]
  | cons c t => simpa [StopsDigits] using h.1

/-- Digits are read up to what is no digit. -/
theorem readDigits_append {ds rest : Text} (hd : Digits ds) (hr : StopsDigits rest) :
    readDigits (ds ++ rest) = some (ds, rest) := by
  have ht : rest.takeWhile isDigit = [] ∧ rest.dropWhile isDigit = rest := by
    cases rest with
    | nil => exact ⟨rfl, rfl⟩
    | cons c r => simp [hr c rfl]
  obtain ⟨hne, hall⟩ := hd
  rw [readDigits, List.takeWhile_append_of_pos hall, List.dropWhile_append_of_pos hall, ht.1, ht.2,
    List.append_nil]
  cases ds with
  | nil => exact absurd rfl hne
  | cons c ds => rfl

theorem Digits.head {ds : Text} (hd : Digits ds) : ∃ c r, ds = c :: r ∧ isDigit c = true := by
  obtain ⟨hne, hall⟩ := hd
  cases ds with
  | nil => exact absurd rfl hne
  | cons c r => exact ⟨c, r, rfl, hall c (by simp)⟩

theorem isDigit_ne {c d : Char} (hc : isDigit c = true) (hd : isDigit d = false) : c ≠ d := by
  rintro rfl
  rw [hc] at hd
  cases hd

/-- An exponent is read, or found missing, where a number ends behind it. -/
theorem readExponent_append {exponent rest : Text} (hr : Ends rest)
    (h : exponent = [] ∨ (∃ e s ds, (e = 'e' ∨ e = 'E') ∧ (s = [] ∨ s = ['+'] ∨ s = ['-']) ∧
      Digits ds ∧ exponent = e :: (s ++ ds))) :
    readExponent (exponent ++ rest) = some (exponent, rest) := by
  rcases h with rfl | ⟨e, s, ds, he, hs, hd, rfl⟩
  · cases rest with
    | nil => rfl
    | cons c r =>
      obtain ⟨-, -, h₁, h₂⟩ := hr
      simp [readExponent, h₁, h₂]
  · have hsign : readSign (s ++ (ds ++ rest)) = (s, ds ++ rest) := by
      rcases hs with rfl | rfl | rfl
      · obtain ⟨c, r, rfl, hc⟩ := hd.head
        have h₁ : c ≠ '+' := isDigit_ne hc rfl
        have h₂ : c ≠ '-' := isDigit_ne hc rfl
        simp [readSign, h₁, h₂]
      · rfl
      · rfl
    simp only [List.cons_append, List.append_assoc, readExponent, he, if_true, hsign]
    rw [readDigits_append hd hr.stopsDigits]
    rfl

/-- A fraction is read, or found missing. -/
theorem readFraction_append {fraction rest : Text} (hp : rest.head? ≠ some '.')
    (hr : StopsDigits rest) (h : fraction = [] ∨ (∃ ds, Digits ds ∧ fraction = '.' :: ds)) :
    readFraction (fraction ++ rest) = some (fraction, rest) := by
  rcases h with rfl | ⟨ds, hd, rfl⟩
  · cases rest with
    | nil => rfl
    | cons c r =>
      have hc : c ≠ '.' := by simpa using hp
      simp [readFraction, hc]
  · simp only [List.cons_append, readFraction]
    rw [readDigits_append hd hr]
    rfl

/-- The digits in front of the point are read. -/
theorem readWhole_append {whole rest : Text} (hr : StopsDigits rest)
    (h : whole = ['0'] ∨ (Digits whole ∧ whole.head? ≠ some '0')) :
    readWhole (whole ++ rest) = some (whole, rest) := by
  rcases h with rfl | ⟨hd, hz⟩
  · rfl
  · obtain ⟨c, r, rfl, -⟩ := hd.head
    have hc : c ≠ '0' := by simpa using hz
    rw [List.cons_append, readWhole]
    · exact readDigits_append hd hr
    · simpa using hc

/-- The texts of numbers start like the digits before the point, after the sign. -/
theorem whole_head {whole : Text} (h : whole = ['0'] ∨ (Digits whole ∧ whole.head? ≠ some '0')) :
    ∃ c r, whole = c :: r ∧ isDigit c = true := by
  rcases h with rfl | ⟨hd, -⟩
  · exact ⟨'0', [], rfl, rfl⟩
  · exact hd.head

/-- A sign is put in front of what is read behind it. -/
theorem readNumber_sign {sign t : Text} (hs : sign = [] ∨ sign = ['-']) (ht : t.head? ≠ some '-') :
    readNumber (sign ++ t) = (do
      let (whole, r) ← readWhole t
      let (fraction, r) ← readFraction r
      let (exponent, rest) ← readExponent r
      some (sign ++ whole ++ fraction ++ exponent, rest)) := by
  rcases hs with rfl | rfl
  · cases t with
    | nil => rfl
    | cons c r =>
      have hc : c ≠ '-' := by simpa using ht
      simp [readNumber, hc]
  · rfl

/-- A number is read up to what cannot continue it. -/
theorem readNumber_numeral {t : Text} (h : Numeral t) (rest : Text) (hr : Ends rest) :
    readNumber (t ++ rest) = some (t, rest) := by
  obtain ⟨hsign, hwhole, hfraction, hexponent⟩ := h
  rename_i sign whole fraction exponent
  have hx := readExponent_append hr hexponent
  have hxs : StopsDigits (exponent ++ rest) ∧ (exponent ++ rest).head? ≠ some '.' := by
    rcases hexponent with rfl | ⟨e, s, ds, he, -, -, rfl⟩
    · refine ⟨hr.stopsDigits, ?_⟩
      cases rest with
      | nil => simp
      | cons c r => simpa using hr.2.1
    · rcases he with rfl | rfl <;> simp [StopsDigits, isDigit]
  have hf := readFraction_append hxs.2 hxs.1 hfraction
  have hfs : StopsDigits (fraction ++ (exponent ++ rest)) := by
    rcases hfraction with rfl | ⟨ds, -, rfl⟩
    · exact hxs.1
    · simp [StopsDigits, isDigit]
  have hw := readWhole_append hfs hwhole
  have hminus : (whole ++ (fraction ++ (exponent ++ rest))).head? ≠ some '-' := by
    obtain ⟨c, r, rfl, hdigit⟩ := whole_head hwhole
    simpa using isDigit_ne hdigit (d := '-') rfl
  rw [List.append_assoc, List.append_assoc, List.append_assoc, readNumber_sign hsign hminus, hw]
  simp only [Option.bind_eq_bind, Option.bind_some, hf, hx, List.append_assoc]

/-! ### Values -/

/-- The first character of a value is that of a word, a number, a string, an array or an object. -/
theorem Writes.head {t : Text} {j : Json} (h : Writes t (.value j)) :
    ∃ c r, t = c :: r ∧ isGap c = false ∧ c ≠ ']' := by
  cases h with
  | nullWord => exact ⟨_, _, rfl, by decide, by decide⟩
  | trueWord => exact ⟨_, _, rfl, by decide, by decide⟩
  | falseWord => exact ⟨_, _, rfl, by decide, by decide⟩
  | number h =>
    obtain ⟨hsign, hwhole, -, -⟩ := h
    rcases hsign with rfl | rfl
    · obtain ⟨c, r, rfl, hc⟩ := whole_head hwhole
      refine ⟨c, _, rfl, ?_, isDigit_ne hc rfl⟩
      have h₁ : c ≠ ' ' := isDigit_ne hc rfl
      have h₂ : c ≠ '\n' := isDigit_ne hc rfl
      have h₃ : c ≠ '\t' := isDigit_ne hc rfl
      have h₄ : c ≠ '\r' := isDigit_ne hc rfl
      simp [isGap, h₁, h₂, h₃, h₄]
    · exact ⟨_, _, rfl, by decide, by decide⟩
  | string _ => exact ⟨_, _, rfl, by decide, by decide⟩
  | emptyArray _ => exact ⟨_, _, rfl, by decide, by decide⟩
  | array _ => exact ⟨_, _, rfl, by decide, by decide⟩
  | emptyObject _ => exact ⟨_, _, rfl, by decide, by decide⟩
  | object _ => exact ⟨_, _, rfl, by decide, by decide⟩

/-- No blanks stand in front of a value. -/
theorem skipGap_value {t : Text} {j : Json} (h : Writes t (.value j)) (rest : Text) :
    skipGap (t ++ rest) = t ++ rest := by
  obtain ⟨c, r, rfl, hc, -⟩ := h.head
  exact skipGap_cons hc _

/-- The reader skips the blanks in front of a value. -/
theorem readValue_gap {g : Text} (hg : Gap g) (fuel : Nat) (t : Text) :
    readValue fuel (g ++ t) = readValue fuel t := by
  cases fuel with
  | zero => rfl
  | succ fuel => rw [readValue, readValue, skipGap_append hg]

/-- A digit or a minus begins a number: no word, quote, bracket or brace looks like one. -/
theorem readValue_number {c : Char} (hc : isDigit c = true ∨ c = '-') (fuel : Nat) (t : Text) :
    readValue (fuel + 1) (c :: t) = (readNumber (c :: t)).map fun p => (number p.1, p.2) := by
  have hne : ∀ d, isDigit d = false → d ≠ '-' → c ≠ d := by
    intro d hd hm
    rcases hc with hc | rfl
    · exact isDigit_ne hc hd
    · exact hm.symm
  have hg : isGap c = false := by
    have h₁ := hne ' ' rfl (by decide)
    have h₂ := hne '\n' rfl (by decide)
    have h₃ := hne '\t' rfl (by decide)
    have h₄ := hne '\r' rfl (by decide)
    simp [isGap, h₁, h₂, h₃, h₄]
  rw [readValue, skipGap_cons hg]
  split <;> rename_i heq <;> try simp only [List.cons.injEq] at heq
  · exact absurd heq.1 (hne 'n' rfl (by decide))
  · exact absurd heq.1 (hne 't' rfl (by decide))
  · exact absurd heq.1 (hne 'f' rfl (by decide))
  · exact absurd heq.1 (hne '"' rfl (by decide))
  · exact absurd heq.1 (hne '[' rfl (by decide))
  · exact absurd heq.1 (hne '\x7b' rfl (by decide))
  · rfl

theorem readValue_array {t : Text} (ht : ∀ r, skipGap t ≠ ']' :: r) (fuel : Nat) :
    readValue (fuel + 1) ('[' :: t) = (readItems fuel t).map fun p => (array p.1, p.2) := by
  rw [readValue, skipGap_cons (by decide)]
  simp only

theorem readValue_object {t : Text} (ht : ∀ r, skipGap t ≠ '\x7d' :: r) (fuel : Nat) :
    readValue (fuel + 1) ('\x7b' :: t) = (readEntries fuel t).map fun p => (object p.1, p.2) := by
  rw [readValue, skipGap_cons (by decide)]
  simp only

/-- A number begins with a digit or a minus. -/
theorem Numeral.head {t : Text} (h : Numeral t) :
    ∃ c r, t = c :: r ∧ (isDigit c = true ∨ c = '-') := by
  obtain ⟨hsign, hwhole, -, -⟩ := h
  obtain ⟨c, r, rfl, hc⟩ := whole_head hwhole
  rcases hsign with rfl | rfl
  · exact ⟨c, _, rfl, .inl hc⟩
  · exact ⟨'-', _, rfl, .inr rfl⟩

/-- Items do not begin with the bracket that closes an empty array. -/
theorem Writes.items_head {t : Text} {js : List Json} (h : Writes t (.items js)) (rest r : Text) :
    skipGap (t ++ rest) ≠ ']' :: r := by
  cases h with
  | lastItem hg _ hv =>
    rw [List.append_assoc, List.append_assoc, skipGap_append hg, skipGap_value hv]
    obtain ⟨c, r', rfl, -, hc⟩ := hv.head
    simp [hc]
  | item hg _ hv _ =>
    rw [List.append_assoc, List.append_assoc, skipGap_append hg, skipGap_value hv]
    obtain ⟨c, r', rfl, -, hc⟩ := hv.head
    simp [hc]

/-- Entries do not begin with the brace that closes an empty object. -/
theorem Writes.entries_head {t : Text} {es : List (Option Text × Json)} (h : Writes t (.entries es))
    (rest r : Text) : skipGap (t ++ rest) ≠ '\x7d' :: r := by
  cases h with
  | lastEntry hg =>
    rw [List.append_assoc, skipGap_append hg, List.cons_append, skipGap_cons (by decide)]
    simp
  | entry hg =>
    rw [List.append_assoc, skipGap_append hg, List.cons_append, skipGap_cons (by decide)]
    simp

/-- What the reader makes of each part in front of a text. A number must not go on in that text. -/
def Node.Read (fuel : Nat) (t rest : Text) : Node → Prop
  | .value j => (∀ digits, j = number digits → Ends rest) →
    readValue fuel (t ++ rest) = some (j, rest)
  | .items js => readItems fuel (t ++ rest) = some (js, rest)
  | .entries es => readEntries fuel (t ++ rest) = some (es, rest)

/-- The reader takes every text of a part for that part. Two units of fuel for each character are
enough: one for the value that begins there, one for the item. -/
theorem Writes.read {t : Text} {n : Node} (h : Writes t n) :
    ∀ (rest : Text) (fuel : Nat), 2 * t.length ≤ fuel → n.Read fuel t rest := by
  induction h with
  | nullWord =>
    intro rest fuel hfuel _
    obtain ⟨k, rfl⟩ : ∃ k, fuel = k + 1 := ⟨fuel - 1, by simp at hfuel; omega⟩
    rfl
  | trueWord =>
    intro rest fuel hfuel _
    obtain ⟨k, rfl⟩ : ∃ k, fuel = k + 1 := ⟨fuel - 1, by simp at hfuel; omega⟩
    rfl
  | falseWord =>
    intro rest fuel hfuel _
    obtain ⟨k, rfl⟩ : ∃ k, fuel = k + 1 := ⟨fuel - 1, by simp at hfuel; omega⟩
    rfl
  | number hn =>
    intro rest fuel hfuel hrest
    have hread := readNumber_numeral hn rest (hrest _ rfl)
    obtain ⟨c, r, rfl, hc⟩ := hn.head
    obtain ⟨k, rfl⟩ : ∃ k, fuel = k + 1 := ⟨fuel - 1, by simp at hfuel; omega⟩
    rw [List.cons_append] at hread ⊢
    rw [readValue_number hc, hread]
    rfl
  | string hs =>
    intro rest fuel hfuel _
    obtain ⟨k, rfl⟩ : ∃ k, fuel = k + 1 := ⟨fuel - 1, by simp at hfuel; omega⟩
    rw [List.cons_append, List.append_assoc, readValue, skipGap_cons (by decide)]
    simp only [List.cons_append, List.nil_append, readString_spells hs, Option.map_some]
  | emptyArray hg =>
    intro rest fuel hfuel _
    obtain ⟨k, rfl⟩ : ∃ k, fuel = k + 1 := ⟨fuel - 1, by simp at hfuel; omega⟩
    rw [List.cons_append, List.append_assoc, readValue, skipGap_cons (by decide)]
    simp only [skipGap_append hg, List.cons_append, skipGap_cons (show isGap ']' = false by decide),
      List.nil_append]
  | array hi ih =>
    intro rest fuel hfuel _
    obtain ⟨k, rfl⟩ : ∃ k, fuel = k + 1 := ⟨fuel - 1, by simp at hfuel; omega⟩
    have hread := ih rest k (by simp at hfuel; omega)
    simp only [Node.Read] at hread
    rw [List.cons_append, readValue_array (hi.items_head rest), hread]
    rfl
  | emptyObject hg =>
    intro rest fuel hfuel _
    obtain ⟨k, rfl⟩ : ∃ k, fuel = k + 1 := ⟨fuel - 1, by simp at hfuel; omega⟩
    rw [List.cons_append, List.append_assoc, readValue, skipGap_cons (by decide)]
    simp only [skipGap_append hg, List.cons_append, List.nil_append,
      skipGap_cons (show isGap '\x7d' = false by decide)]
  | object he ih =>
    intro rest fuel hfuel _
    obtain ⟨k, rfl⟩ : ∃ k, fuel = k + 1 := ⟨fuel - 1, by simp at hfuel; omega⟩
    have hread := ih rest k (by simp at hfuel; omega)
    simp only [Node.Read] at hread
    rw [List.cons_append, readValue_object (he.entries_head rest), hread]
    rfl
  | lastItem hg hg' hv ih =>
    intro rest fuel hfuel
    simp only [List.length_append, List.length_cons, List.length_nil] at hfuel
    obtain ⟨k, rfl⟩ : ∃ k, fuel = k + 1 := ⟨fuel - 1, by omega⟩
    have hend : Ends (']' :: rest) := by simp [Ends, isDigit]
    have hread := ih _ k (by omega) fun _ _ => ends_gap hg' hend
    simp only [Node.Read, List.append_assoc, List.cons_append, List.nil_append]
    rw [readItems, readValue_gap hg, hread]
    simp only [skipGap_append hg', skipGap_cons (show isGap ']' = false by decide)]
  | @item g t g' r j js hg hg' hv _ ih ihs =>
    intro rest fuel hfuel
    simp only [List.length_append, List.length_cons] at hfuel
    obtain ⟨k, rfl⟩ : ∃ k, fuel = k + 1 := ⟨fuel - 1, by omega⟩
    have hreads := ihs rest k (by omega)
    have hend : Ends (',' :: (r ++ rest)) := by simp [Ends, isDigit]
    have hread := ih _ k (by omega) fun _ _ => ends_gap hg' hend
    simp only [Node.Read] at hreads
    simp only [Node.Read, List.append_assoc, List.cons_append]
    rw [readItems, readValue_gap hg, hread]
    simp only [skipGap_append hg', skipGap_cons (show isGap ',' = false by decide), hreads,
      Option.map_some]
  | lastEntry hg hk hg₁ hg₂ hv hg₃ ih =>
    intro rest fuel hfuel
    simp only [List.length_append, List.length_cons, List.length_nil] at hfuel
    obtain ⟨k, rfl⟩ : ∃ k, fuel = k + 1 := ⟨fuel - 1, by omega⟩
    have hend : Ends ('\x7d' :: rest) := by simp [Ends, isDigit]
    have hread := ih _ k (by omega) fun _ _ => ends_gap hg₃ hend
    simp only [Node.Read, List.append_assoc, List.cons_append, List.nil_append]
    rw [readEntries, skipGap_append hg, skipGap_cons (by decide)]
    simp only [readString_spells hk, skipGap_append hg₁,
      skipGap_cons (show isGap ':' = false by decide), readValue_gap hg₂, hread, skipGap_append hg₃,
      skipGap_cons (show isGap '\x7d' = false by decide)]
  | @entry g k g₁ g₂ t g₃ r us j es hg hk hg₁ hg₂ hv hg₃ _ ih ihs =>
    intro rest fuel hfuel
    simp only [List.length_append, List.length_cons] at hfuel
    obtain ⟨n, rfl⟩ : ∃ n, fuel = n + 1 := ⟨fuel - 1, by omega⟩
    have hreads := ihs rest n (by omega)
    have hend : Ends (',' :: (r ++ rest)) := by simp [Ends, isDigit]
    have hread := ih _ n (by omega) fun _ _ => ends_gap hg₃ hend
    simp only [Node.Read] at hreads
    simp only [Node.Read, List.append_assoc, List.cons_append]
    rw [readEntries, skipGap_append hg, skipGap_cons (by decide)]
    simp only [readString_spells hk, skipGap_append hg₁,
      skipGap_cons (show isGap ':' = false by decide), readValue_gap hg₂, hread, skipGap_append hg₃,
      skipGap_cons (show isGap ',' = false by decide), hreads, Option.map_some]

/-- A text that writes a value, with blanks around it, is read as that value. -/
theorem parse?_writes {g t g' : Text} {j : Json} (hg : Gap g) (h : Writes t (.value j))
    (hg' : Gap g') : parse? (g ++ (t ++ g')) = some j := by
  have hfuel : 2 * t.length ≤ 2 * (g ++ (t ++ g')).length + 2 := by
    simp only [List.length_append]
    omega
  have hend : Ends g' := by simpa using ends_gap hg' (t := []) trivial
  have hread := h.read g' _ hfuel fun _ _ => hend
  have hskip : skipGap g' = [] := by simpa [skipGap] using skipGap_append hg' []
  rw [parse?, readValue_gap hg, hread]
  simp only [hskip, if_true]

end FilterLine.Json
