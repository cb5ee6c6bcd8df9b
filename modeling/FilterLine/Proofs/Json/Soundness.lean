import Mathlib.Data.List.TakeWhile
import FilterLine.Proofs.Json.Grammar

/-!
The reader takes texts of the grammar only. What it reads in front of a text is a text of what it
gives, and the rest is left as it is; so a text is read as a value just if it writes it, with blanks
around it. A value that is no number is complete once its last character has been read: the reader
gives it whatever follows.
-/
namespace FilterLine.Json

/-! ### Blanks and strings -/

/-- A text is some blanks and what is left without them. -/
theorem exists_gap (t : Text) : ∃ g, Gap g ∧ t = g ++ skipGap t :=
  ⟨t.takeWhile isGap, fun _ hc => List.mem_takeWhile_imp hc,
    (List.takeWhile_append_dropWhile ..).symm⟩

/-- Units that have been read are spelled up to the closing quote. -/
theorem spells_of_readUnits {t rest : Text} {us : List CodeUnit}
    (h : readUnits t = some (us, rest)) : ∃ k, t = k ++ '"' :: rest ∧ Spells k us := by
  fun_induction readUnits t generalizing us rest with
  | case1 => cases h
  | case2 r =>
    cases h
    exact ⟨[], rfl, .nil⟩
  | case3 a b c d r ih =>
    simp only [Option.bind_eq_bind, Option.bind_eq_some_iff, Option.some.injEq,
      Prod.mk.injEq, Prod.exists] at h
    obtain ⟨u, hu, vs, r', hr, rfl, rfl⟩ := h
    obtain ⟨k, rfl, hk⟩ := ih hr
    exact ⟨_, rfl, .unicode hu hk⟩
  | case4 e r _ ih =>
    simp only [Option.bind_eq_bind, Option.bind_eq_some_iff, Option.some.injEq,
      Prod.mk.injEq, Prod.exists] at h
    obtain ⟨c, hc, vs, r', hr, rfl, rfl⟩ := h
    obtain ⟨k, rfl, hk⟩ := ih hr
    exact ⟨_, rfl, .escape hc hk⟩
  | case5 => cases h
  | case6 c r hq _ _ hc ih =>
    simp only [Option.bind_eq_bind, Option.bind_eq_some_iff, Option.some.injEq,
      Prod.mk.injEq, Prod.exists] at h
    obtain ⟨vs, r', hr, rfl, rfl⟩ := h
    obtain ⟨k, rfl, hk⟩ := ih hr
    obtain ⟨hb, hcontrol⟩ := not_or.mp hc
    exact ⟨_, rfl, .plain hq hb (Nat.not_lt.mp hcontrol) hk⟩

theorem spells_of_readString {t rest : Text} {content : Option Text}
    (h : readString t = some (content, rest)) :
    ∃ k us, t = k ++ '"' :: rest ∧ Spells k us ∧ content = spell us := by
  simp only [readString, Option.bind_eq_bind, Option.bind_eq_some_iff, Option.some.injEq,
    Prod.mk.injEq, Prod.exists] at h
  obtain ⟨us, r, hr, rfl, rfl⟩ := h
  obtain ⟨k, hk, hspells⟩ := spells_of_readUnits hr
  exact ⟨k, us, hk, hspells, rfl⟩

/-! ### Numbers -/

/-- Digits that have been read stand in front. -/
theorem digits_of_readDigits {t ds rest : Text} (h : readDigits t = some (ds, rest)) :
    t = ds ++ rest ∧ Digits ds := by
  rw [readDigits] at h
  split at h
  · cases h
  · rename_i hne
    cases h
    exact ⟨(List.takeWhile_append_dropWhile ..).symm, hne, fun c hc => List.mem_takeWhile_imp hc⟩

/-- The digits in front of the point are a lone zero, or begin with another digit. -/
theorem whole_of_readWhole {t whole rest : Text} (h : readWhole t = some (whole, rest)) :
    t = whole ++ rest ∧ (whole = ['0'] ∨ (Digits whole ∧ whole.head? ≠ some '0')) := by
  rw [readWhole.eq_def] at h
  split at h
  · cases h
    exact ⟨rfl, .inl rfl⟩
  · rename_i hzero
    obtain ⟨rfl, hd⟩ := digits_of_readDigits h
    obtain ⟨c, r, rfl, -⟩ := hd.head
    refine ⟨rfl, .inr ⟨hd, fun hc => ?_⟩⟩
    cases Option.some.inj hc
    exact hzero _ rfl

theorem fraction_of_readFraction {t fraction rest : Text}
    (h : readFraction t = some (fraction, rest)) :
    t = fraction ++ rest ∧ (fraction = [] ∨ (∃ ds, Digits ds ∧ fraction = '.' :: ds)) := by
  rw [readFraction.eq_def] at h
  split at h
  · obtain ⟨⟨ds, r⟩, hr, heq⟩ := Option.map_eq_some_iff.mp h
    cases heq
    obtain ⟨rfl, hd⟩ := digits_of_readDigits hr
    exact ⟨rfl, .inr ⟨ds, hd, rfl⟩⟩
  · cases h
    exact ⟨rfl, .inl rfl⟩

theorem readSign_eq (t : Text) : ∃ s r, readSign t = (s, r) ∧ t = s ++ r ∧
    (s = [] ∨ s = ['+'] ∨ s = ['-']) := by
  rw [readSign.eq_def]
  split
  · exact ⟨_, _, rfl, rfl, .inr (.inl rfl)⟩
  · exact ⟨_, _, rfl, rfl, .inr (.inr rfl)⟩
  · exact ⟨_, _, rfl, rfl, .inl rfl⟩

/-- An exponent that has been read is written as one, or there is none. -/
theorem exponent_of_readExponent {t exponent rest : Text}
    (h : readExponent t = some (exponent, rest)) :
    t = exponent ++ rest ∧ (exponent = [] ∨ (∃ e s ds, (e = 'e' ∨ e = 'E') ∧
      (s = [] ∨ s = ['+'] ∨ s = ['-']) ∧ Digits ds ∧ exponent = e :: (s ++ ds))) := by
  cases t with
  | nil =>
    cases h
    exact ⟨rfl, .inl rfl⟩
  | cons c r =>
    rw [readExponent] at h
    by_cases hc : c = 'e' ∨ c = 'E'
    · obtain ⟨s, r', hsign, rfl, hs⟩ := readSign_eq r
      simp only [hc, if_true, hsign, Option.bind_eq_bind, Option.bind_eq_some_iff,
        Option.some.injEq, Prod.mk.injEq, Prod.exists] at h
      obtain ⟨ds, r'', hread, rfl, rfl⟩ := h
      obtain ⟨rfl, hd⟩ := digits_of_readDigits hread
      exact ⟨by simp, .inr ⟨c, s, ds, hc, hs, hd, rfl⟩⟩
    · rw [if_neg hc] at h
      cases h
      exact ⟨rfl, .inl rfl⟩

/-- Whether a numeral has a minus sign or not, its three parts are read alike behind it. -/
theorem exists_sign_of_readNumber {t digits rest : Text}
    (h : readNumber t = some (digits, rest)) :
    ∃ sign r, (sign = [] ∨ sign = ['-']) ∧ t = sign ++ r ∧ (do
      let (whole, r) ← readWhole r
      let (fraction, r) ← readFraction r
      let (exponent, rest) ← readExponent r
      some (sign ++ whole ++ fraction ++ exponent, rest)) = some (digits, rest) := by
  by_cases ht : t.head? = some '-'
  · obtain ⟨r, rfl⟩ := List.head?_eq_some_iff.mp ht
    exact ⟨['-'], r, .inr rfl, rfl, h⟩
  · have hread := readNumber_sign (.inl rfl) ht
    rw [List.nil_append] at hread
    exact ⟨[], t, .inl rfl, rfl, hread.symm.trans h⟩

/-- A number that has been read is written as one. -/
theorem numeral_of_readNumber {t digits rest : Text} (h : readNumber t = some (digits, rest)) :
    t = digits ++ rest ∧ Numeral digits := by
  obtain ⟨sign, r, hsign, rfl, hparts⟩ := exists_sign_of_readNumber h
  simp only [Option.bind_eq_bind, Option.bind_eq_some_iff, Option.some.injEq, Prod.mk.injEq,
    Prod.exists] at hparts
  obtain ⟨whole, r₁, hw, fraction, r₂, hf, exponent, r₃, hx, rfl, rfl⟩ := hparts
  obtain ⟨rfl, hwhole⟩ := whole_of_readWhole hw
  obtain ⟨rfl, hfraction⟩ := fraction_of_readFraction hf
  obtain ⟨rfl, hexponent⟩ := exponent_of_readExponent hx
  exact ⟨by simp, .mk hsign hwhole hfraction hexponent⟩

/-! ### Values -/

/-- What the reader gives in front of a text is written there. -/
structure Reads (fuel : Nat) : Prop where
  value : ∀ t j rest, readValue fuel t = some (j, rest) →
    ∃ g k, Gap g ∧ t = g ++ (k ++ rest) ∧ Writes k (.value j)
  items : ∀ t js rest, readItems fuel t = some (js, rest) →
    ∃ k, t = k ++ rest ∧ Writes k (.items js)
  entries : ∀ t es rest, readEntries fuel t = some (es, rest) →
    ∃ k, t = k ++ rest ∧ Writes k (.entries es)

theorem reads_zero : Reads 0 :=
  ⟨fun _ _ _ h => (by cases h), fun _ _ _ h => (by cases h), fun _ _ _ h => (by cases h)⟩

/-- With one step more a value that is read is written. Blanks in front of it are skipped, so it
stands behind them. -/
theorem Reads.value_succ {fuel : Nat} (h : Reads fuel) {t rest : Text} {j : Json}
    (hread : readValue (fuel + 1) t = some (j, rest)) :
    ∃ g k, Gap g ∧ t = g ++ (k ++ rest) ∧ Writes k (.value j) := by
  obtain ⟨g, hg, ht⟩ := exists_gap t
  suffices hvalue : ∃ k, skipGap t = k ++ rest ∧ Writes k (.value j) by
    obtain ⟨k, hk, hwrites⟩ := hvalue
    exact ⟨g, k, hg, ht.trans (by rw [hk]), hwrites⟩
  clear ht
  rw [readValue] at hread
  split at hread
  · rename_i heq
    cases hread
    exact ⟨_, heq, .nullWord⟩
  · rename_i heq
    cases hread
    exact ⟨_, heq, .trueWord⟩
  · rename_i heq
    cases hread
    exact ⟨_, heq, .falseWord⟩
  · rename_i r heq
    obtain ⟨⟨content, r'⟩, hstring, hpair⟩ := Option.map_eq_some_iff.mp hread
    cases hpair
    obtain ⟨k, us, rfl, hspells, rfl⟩ := spells_of_readString hstring
    exact ⟨'"' :: (k ++ ['"']), by simp [heq], .string hspells⟩
  · rename_i r heq
    obtain ⟨g', hg', hr⟩ := exists_gap r
    split at hread
    · rename_i hclose
      cases hread
      rw [hclose] at hr
      exact ⟨'[' :: (g' ++ [']']), by rw [heq, hr]; simp, .emptyArray hg'⟩
    · obtain ⟨⟨js, r'⟩, hitems, hpair⟩ := Option.map_eq_some_iff.mp hread
      cases hpair
      obtain ⟨k, rfl, hwrites⟩ := h.items _ _ _ hitems
      exact ⟨'[' :: k, heq, .array hwrites⟩
  · rename_i r heq
    obtain ⟨g', hg', hr⟩ := exists_gap r
    split at hread
    · rename_i hclose
      cases hread
      rw [hclose] at hr
      exact ⟨'\x7b' :: (g' ++ ['\x7d']), by rw [heq, hr]; simp, .emptyObject hg'⟩
    · obtain ⟨⟨es, r'⟩, hentries, hpair⟩ := Option.map_eq_some_iff.mp hread
      cases hpair
      obtain ⟨k, rfl, hwrites⟩ := h.entries _ _ _ hentries
      exact ⟨'\x7b' :: k, heq, .object hwrites⟩
  · obtain ⟨⟨digits, r'⟩, hnumber, hpair⟩ := Option.map_eq_some_iff.mp hread
    cases hpair
    obtain ⟨heq, hnumeral⟩ := numeral_of_readNumber hnumber
    exact ⟨_, heq, .number hnumeral⟩

/-- With one step more the items that are read are written. -/
theorem Reads.items_succ {fuel : Nat} (h : Reads fuel) {t rest : Text} {js : List Json}
    (hread : readItems (fuel + 1) t = some (js, rest)) :
    ∃ k, t = k ++ rest ∧ Writes k (.items js) := by
  rw [readItems] at hread
  split at hread
  · cases hread
  · rename_i j r hvalue
    obtain ⟨g, k, hg, rfl, hwrites⟩ := h.value _ _ _ hvalue
    obtain ⟨g', hg', hr⟩ := exists_gap r
    split at hread
    · rename_i hclose
      cases hread
      rw [hclose] at hr
      exact ⟨_, by rw [hr]; simp, .lastItem hg hg' hwrites⟩
    · rename_i r' hcomma
      obtain ⟨⟨js', r''⟩, hitems, hpair⟩ := Option.map_eq_some_iff.mp hread
      cases hpair
      obtain ⟨k', rfl, hwrites'⟩ := h.items _ _ _ hitems
      rw [hcomma] at hr
      exact ⟨_, by rw [hr]; simp, .item hg hg' hwrites hwrites'⟩
    · cases hread

/-- With one step more the entries that are read are written. -/
theorem Reads.entries_succ {fuel : Nat} (h : Reads fuel) {t rest : Text}
    {es : List (Option Text × Json)} (hread : readEntries (fuel + 1) t = some (es, rest)) :
    ∃ k, t = k ++ rest ∧ Writes k (.entries es) := by
  obtain ⟨g, hg, ht⟩ := exists_gap t
  rw [readEntries] at hread
  split at hread
  · rename_i r hquote
    rw [hquote] at ht
    split at hread
    · cases hread
    · rename_i key r₁ hstring
      obtain ⟨k, us, rfl, hspells, rfl⟩ := spells_of_readString hstring
      obtain ⟨g₁, hg₁, hr₁⟩ := exists_gap r₁
      split at hread
      · rename_i r₂ hcolon
        rw [hcolon] at hr₁
        split at hread
        · cases hread
        · rename_i j r₃ hvalue
          obtain ⟨g₂, k₂, hg₂, rfl, hwrites⟩ := h.value _ _ _ hvalue
          obtain ⟨g₃, hg₃, hr₃⟩ := exists_gap r₃
          split at hread
          · rename_i hclose
            cases hread
            rw [hclose] at hr₃
            exact ⟨_, by rw [ht, hr₁, hr₃]; simp,
              .lastEntry hg hspells hg₁ hg₂ hwrites hg₃⟩
          · rename_i r₄ hcomma
            obtain ⟨⟨es', r₅⟩, hentries, hpair⟩ := Option.map_eq_some_iff.mp hread
            cases hpair
            obtain ⟨k', rfl, hwrites'⟩ := h.entries _ _ _ hentries
            rw [hcomma] at hr₃
            exact ⟨_, by rw [ht, hr₁, hr₃]; simp,
              .entry hg hspells hg₁ hg₂ hwrites hg₃ hwrites'⟩
          · cases hread
      · cases hread
  · cases hread

/-- Whatever the fuel, what is read is written. -/
theorem reads (fuel : Nat) : Reads fuel := by
  induction fuel with
  | zero => exact reads_zero
  | succ fuel ih =>
    exact ⟨fun _ _ _ h => ih.value_succ h, fun _ _ _ h => ih.items_succ h,
      fun _ _ _ h => ih.entries_succ h⟩

/-- A text is read as a value just if it writes the value, with blanks around it. -/
theorem parse?_eq_some_iff {t : Text} {j : Json} :
    parse? t = some j ↔ ∃ g k g', Gap g ∧ Gap g' ∧ t = g ++ (k ++ g') ∧ Writes k (.value j) := by
  constructor
  · intro h
    rw [parse?] at h
    split at h
    · rename_i j' rest hread
      by_cases hrest : skipGap rest = []
      · rw [if_pos hrest] at h
        cases h
        obtain ⟨g, k, hg, ht, hwrites⟩ := (reads _).value _ _ _ hread
        obtain ⟨g', hg', hr⟩ := exists_gap rest
        rw [hrest, List.append_nil] at hr
        exact ⟨g, k, rest, hg, hr ▸ hg', ht, hwrites⟩
      · rw [if_neg hrest] at h
        cases h
    · cases h
  · rintro ⟨g, k, g', hg, hg', rfl, hwrites⟩
    exact parse?_writes hg hwrites hg'

/-- A text that begins like a number is read as one. -/
theorem Numeral.read {t rest r : Text} {j : Json} {fuel : Nat} (h : Numeral t)
    (hread : readValue fuel (t ++ rest) = some (j, r)) : ∃ digits, j = number digits := by
  obtain ⟨c, t', rfl, hc⟩ := h.head
  cases fuel with
  | zero => cases hread
  | succ fuel =>
    rw [List.cons_append, readValue_number hc] at hread
    obtain ⟨p, -, hp⟩ := Option.map_eq_some_iff.mp hread
    cases hp
    exact ⟨p.1, rfl⟩

/-- Reading stops at the end of a text that writes a value: what is read in a start of it, be it as
another value, is a number or the whole. -/
theorem Writes.read_start {t g k u : Text} {j j' : Json} (h : Writes t (.value j))
    (hj : ∀ digits, j ≠ Json.number digits) (hg : Gap g) (hk : Writes k (.value j'))
    (ht : t = g ++ (k ++ u)) : u = [] := by
  have hfuel : 2 * k.length ≤ 2 * t.length := by
    rw [ht]
    simp only [List.length_append]
    omega
  have hread : readValue (2 * t.length) (k ++ u) = some (j, []) := by
    rw [← readValue_gap hg, ← ht]
    have hwhole := h.read [] (2 * t.length) (Nat.le_refl _) fun digits hd => absurd hd (hj digits)
    rwa [List.append_nil] at hwhole
  have hj' : ∀ digits, j' ≠ Json.number digits := by
    rintro digits rfl
    cases hk with
    | number hn =>
      obtain ⟨digits', hd⟩ := hn.read hread
      exact hj digits' hd
  have hread' := hk.read u (2 * t.length) hfuel fun digits hd => absurd hd (hj' digits)
  rw [hread', Option.some.injEq, Prod.mk.injEq] at hread
  exact hread.2

/-- No text that is cut off is read as a value. -/
theorem Writes.parse?_cut {t t' : Text} {j : Json} (h : Writes t (.value j))
    (hj : ∀ digits, j ≠ Json.number digits) (hinit : t' <+: t) (hne : t' ≠ t) :
    parse? t' = none := by
  rw [Option.eq_none_iff_forall_ne_some]
  intro j' hj'
  obtain ⟨g, k, g', hg, -, rfl, hwrites⟩ := parse?_eq_some_iff.mp hj'
  obtain ⟨u, rfl⟩ := hinit
  have hu : g' ++ u = [] := h.read_start hj hg hwrites (by simp)
  rw [(List.append_eq_nil_iff.mp hu).2, List.append_nil] at hne
  exact hne rfl

end FilterLine.Json
