import Bakehouse.Proofs.Number.Notation
import Bakehouse.Proofs.ReadingBack

namespace Bakehouse

namespace Number

theorem Binary.isWhole_of_le {b : Binary} (hb : 0 ≤ b.exponent) : b.isWhole = true := by
  rw [isWhole, ratio, if_pos hb, Nat.mod_one]
  rfl

theorem Binary.isWhole_of_zero {b : Binary} (hb : b.significand = 0) : b.isWhole = true := by
  rw [isWhole, ratio, hb]
  split <;> simp

theorem Binary.ratio_div {b : Binary} (hwhole : b.isWhole = true) :
    b.magnitude = (b.ratio.1 / b.ratio.2 : Nat) := by
  have hden : (0 : ℚ) < b.ratio.2 := by exact_mod_cast b.ratio_pos
  rw [isWhole, beq_iff_eq] at hwhole
  rw [b.magnitude_eq, div_eq_iff hden.ne']
  exact_mod_cast (Nat.div_mul_cancel (Nat.dvd_of_mod_eq_zero hwhole)).symm

theorem Binary.natAbs_truncate (b : Binary) : b.truncate.natAbs = b.ratio.1 / b.ratio.2 := by
  simp only [truncate]
  generalize b.ratio.1 / b.ratio.2 = n
  split <;> omega

theorem Binary.magnitude_eq_zero_iff {b : Binary} : b.magnitude = 0 ↔ b.significand = 0 := by
  have hpos : (0 : ℚ) < 2 ^ b.exponent := by positivity
  rw [magnitude, mul_eq_zero, or_iff_left hpos.ne', Nat.cast_eq_zero]

theorem integerText_eq (negative : Bool) (n : Nat) :
    integerText (if negative then -(n : Int) else n) =
      String.ofList (signed (negative && n != 0) (digitChars n)) := by
  rw [integerText]
  cases negative with
  | false => simp [signed]
  | true =>
      cases n with
      | zero => simp [signed]
      | succ n =>
          rw [if_pos rfl, if_pos (by omega), Int.natAbs_neg, Int.natAbs_natCast,
            ← String.toList_inj]
          simp [signed]

/-- Whole numbers of sixteen digits at most are written as integers. -/
theorem display_whole {x : Float} {b : Binary} (hx : kind x = .finite b)
    (hwhole : b.isWhole = true) {n : Nat} (hn : b.magnitude = n) (hlt : n < 10 ^ 16) :
    display x = String.ofList (signed (b.negative && n != 0) (digitChars n)) := by
  have hratio : b.ratio.1 / b.ratio.2 = n := by
    rw [Binary.ratio_div hwhole] at hn
    exact_mod_cast hn
  have hpow : Nat.pow 10 16 = 10 ^ 16 := rfl
  simp only [display, hx, b.natAbs_truncate, hwhole, hratio, hpow, hlt, decide_true, Bool.and_self,
    if_true]
  rw [← integerText_eq, Binary.truncate, hratio]

/-- All other numbers are written as their shortest decimals. -/
theorem display_render {x : Float} {b : Binary} (hx : kind x = .finite b)
    (h : b.isWhole = true → 10 ^ 16 ≤ b.magnitude) :
    display x = String.ofList (signed b.negative (shortest b).render) := by
  have hne : b.significand ≠ 0 := by
    intro hzero
    have hle := h (Binary.isWhole_of_zero hzero)
    rw [Binary.magnitude_eq_zero_iff.mpr hzero] at hle
    norm_num at hle
  have hlarge : (b.isWhole && b.truncate.natAbs < Nat.pow 10 16) = false := by
    rw [Bool.and_eq_false_imp]
    intro hwhole
    have hle := h hwhole
    rw [Binary.ratio_div hwhole, ← b.natAbs_truncate] at hle
    exact decide_eq_false (not_lt.mpr (by exact_mod_cast hle))
  have hzero : (b.significand == 0) = false := by simp [hne]
  simp only [display, hx, hlarge, Binary.render, hzero, signed, Bool.false_eq_true, if_false]

theorem Binary.Canonical.normal {b : Binary} (hb : b.Canonical)
    (h : 10 ^ positionalFrom ≤ b.magnitude) : b.Normal := by
  obtain ⟨hlt, hle, hleast, hmost⟩ := hb
  refine ⟨?_, hlt, hleast, hmost⟩
  by_contra hsmall
  have he := hle.resolve_left hsmall
  have hm : (b.significand : ℚ) * 2 ^ b.exponent < 2 ^ 52 * 2 ^ b.exponent :=
    mul_lt_mul_of_pos_right (by exact_mod_cast not_le.mp hsmall) (by positivity)
  rw [magnitude, positionalFrom] at h
  rw [he] at h hm
  have hbound : (2 ^ 52 * 2 ^ (-1074 : Int) : ℚ) < 10 ^ (-4 : Int) := by
    calc (2 ^ 52 * 2 ^ (-1074 : Int) : ℚ) ≤ 2 ^ 52 * 2 ^ (-66 : Int) :=
          mul_le_mul_of_nonneg_left (zpow_le_zpow_right₀ one_le_two (by decide)) (by positivity)
      _ < 10 ^ (-4 : Int) := by norm_num
  linarith

theorem Binary.add_half_le (b : Binary) (hlt : b.significand < 2 ^ 53) :
    (b.significand + 1 / 2 : ℚ) ≤ 2 ^ 53 := by
  have : (b.significand + 1 : ℚ) ≤ 2 ^ 53 := by exact_mod_cast hlt
  linarith

/-- Below the least number that is written positionally, no number rounds up to it. -/
theorem Binary.Canonical.upper_lt {b : Binary} (hb : b.Canonical)
    (h : b.magnitude < 10 ^ positionalFrom) :
    (b.significand + 1 / 2 : ℚ) * 2 ^ b.exponent < 10 ^ positionalFrom := by
  obtain ⟨hlt, hle, -, -⟩ := hb
  rw [magnitude, positionalFrom] at h
  rw [positionalFrom]
  have hm := b.add_half_le hlt
  rcases lt_trichotomy b.exponent (-66) with he | he | he
  · calc (b.significand + 1 / 2 : ℚ) * 2 ^ b.exponent ≤ 2 ^ 53 * 2 ^ (-67 : Int) :=
          mul_le_mul hm (zpow_le_zpow_right₀ one_le_two (by omega)) (by positivity) (by positivity)
      _ < 10 ^ (-4 : Int) := by norm_num
  · -- Here `10 ^ -4` is 7378697629483820.64… units, which is rounded up.
    rw [he] at h ⊢
    have hscaled : b.significand * 10 ^ 4 < 2 ^ 66 := by
      have : (b.significand : ℚ) * 10 ^ 4 < 2 ^ 66 := by
        norm_num at h ⊢
        linarith
      exact_mod_cast this
    have hupper : b.significand ≤ 7378697629483820 := by
      by_contra hupper
      linarith
    have : (b.significand : ℚ) ≤ 7378697629483820 := by exact_mod_cast hupper
    norm_num
    linarith
  · have hnormal : (2 : ℚ) ^ 52 ≤ b.significand := by
      exact_mod_cast hle.resolve_right (by omega)
    have hlarge : (2 ^ 52 * 2 ^ (-65 : Int) : ℚ) ≤ b.significand * 2 ^ b.exponent :=
      mul_le_mul hnormal (zpow_le_zpow_right₀ one_le_two (by omega)) (by positivity)
        (by positivity)
    norm_num at hlarge h
    linarith

/-- Zero, and what is written without an exponent. -/
def Binary.IsPlain (b : Binary) : Prop :=
  b.magnitude = 0 ∨ 10 ^ positionalFrom ≤ b.magnitude ∧ b.magnitude < 10 ^ positionalBelow

theorem literal?_display_whole {x : Float} {b : Binary} (hx : kind x = .finite b)
    (hwhole : b.isWhole = true) {n : Nat} (hn : b.magnitude = n) (hne : n ≠ 0)
    (hlt : n < 10 ^ 16) :
    ∃ l, literal? (display x).toList = some l ∧ l.negative = b.negative ∧
      l.magnitude = n ∧ l.fraction.length ≤ 2048 := by
  obtain ⟨ks, hks, hdigits, hvalue⟩ := exists_digits n
  have hkne : ks ≠ [] := by
    rintro rfl
    exact Nat.toDigits_ne_nil hdigits
  have hsign : (b.negative && n != 0) = b.negative := by simp [hne]
  rw [display_whole hx hwhole hn hlt, hsign, String.toList_ofList, digitChars, hdigits]
  refine ⟨_, literal?_signed (unsigned?_whole _ hks hkne), rfl, ?_, Nat.zero_le _⟩
  rw [Literal.magnitude, List.append_nil, hvalue, List.length_nil, pow_zero, div_one]

theorem literal?_display_render {x : Float} {b : Binary} (hx : kind x = .finite b)
    (hb : b.Normal) (hwhole : b.isWhole = false) (hlow : 10 ^ positionalFrom ≤ b.magnitude) :
    ∃ l, literal? (display x).toList = some l ∧ l.negative = b.negative ∧
      b.interval.Contains l.magnitude ∧ l.fraction.length ≤ 2048 := by
  have hexponent : b.exponent < 0 := by
    by_contra h
    rw [Binary.isWhole_of_le (not_lt.mp h)] at hwhole
    cases hwhole
  obtain ⟨lead, -, hnext, hcontains, hleast, hfine⟩ :=
    shortest_spec hb.significand_pos hb.significand_lt
  have hlead : positionalFrom ≤ lead := by
    have hlt : (10 : ℚ) ^ positionalFrom < 10 ^ (lead + 1) := hlow.trans_lt hnext
    rw [zpow_lt_zpow_iff_right₀ (by norm_num)] at hlt
    omega
  have hupper : (shortest b).value < 10 ^ positionalBelow := by
    have hm := b.add_half_le hb.significand_lt
    calc (shortest b).value ≤ (b.significand + 1 / 2 : ℚ) * 2 ^ b.exponent :=
          (Binary.le_of_contains hb.significand_pos hcontains).2
      _ ≤ 2 ^ 53 * 2 ^ (0 : Int) := mul_le_mul hm
          (zpow_le_zpow_right₀ one_le_two hexponent.le) (by positivity) (by positivity)
      _ < 10 ^ positionalBelow := by norm_num [positionalBelow]
  have hlower : 10 ^ positionalFrom ≤ (shortest b).value :=
    (zpow_le_zpow_right₀ (by norm_num) hlead).trans hleast
  obtain ⟨l, hl, hnegative, hmagnitude, hlength⟩ := Decimal.render_positional
    (Decimal.digits_pos (hleast.trans_lt' (by positivity))) ⟨hlower, hupper⟩ b.negative
  rw [display_render hx (by simp [hwhole]), String.toList_ofList]
  refine ⟨l, literal?_signed hl, hnegative, hmagnitude ▸ hcontains, ?_⟩
  rw [positionalFrom] at hlead
  omega

/-- The text of a plain number is a literal for a number that is equal to it. -/
theorem literal_of_isPlain {x : Float} {b : Binary} (hx : kind x = .finite b) (hb : b.IsPlain) :
    ∃ l, literal? (display x).toList = some l ∧ (l.value == x) = true := by
  rcases hb with hzero | ⟨hlow, hhigh⟩
  · have hsignificand := Binary.magnitude_eq_zero_iff.mp hzero
    have htext : (display x).toList = ['0'] := by
      rw [display_whole hx (Binary.isWhole_of_zero hsignificand) (n := 0) (by simpa using hzero)
        (by decide), String.toList_ofList]
      simp [signed, digitChars]
    exact ⟨⟨false, [0], []⟩, htext ▸ by decide +kernel, zero_beq hx hsignificand⟩
  · have hnormal := (canonical_of_kind hx).normal hlow
    cases hwhole : b.isWhole with
    | true =>
        have hn := Binary.ratio_div hwhole
        generalize b.ratio.1 / b.ratio.2 = n at hn
        have hne : n ≠ 0 := by
          rintro rfl
          rw [Nat.cast_zero, Binary.magnitude_eq_zero_iff] at hn
          exact hnormal.significand_pos.ne' hn
        have hlt : n < 10 ^ 16 := by
          rw [hn, positionalBelow] at hhigh
          exact_mod_cast hhigh
        obtain ⟨l, hl, hnegative, hmagnitude, hlength⟩ :=
          literal?_display_whole hx hwhole hn hne hlt
        refine ⟨l, hl, value_beq hx hnormal hnegative hlength ?_⟩
        rw [hmagnitude, ← hn]
        exact Binary.contains_magnitude hnormal.significand_pos
    | false =>
        obtain ⟨l, hl, hnegative, hcontains, hlength⟩ :=
          literal?_display_render hx hnormal hwhole hlow
        exact ⟨l, hl, value_beq hx hnormal hnegative hlength hcontains⟩

/-- The text of any other number has an exponent. -/
theorem mem_display_of_not_isPlain {x : Float} {b : Binary} (hx : kind x = .finite b)
    (hb : ¬ b.IsPlain) : 'e' ∈ (display x).toList := by
  obtain ⟨hne, hrange⟩ := not_or.mp hb
  have hpos : 0 < b.significand := Nat.pos_of_ne_zero (mt Binary.magnitude_eq_zero_iff.mpr hne)
  have hcanonical := canonical_of_kind hx
  obtain ⟨lead, hle, hnext, hcontains, hleast, -⟩ := shortest_spec hpos hcanonical.significand_lt
  have hscientific : ¬ (10 ^ positionalFrom ≤ (shortest b).value ∧
      (shortest b).value < 10 ^ positionalBelow) := by
    rintro ⟨hlow, hhigh⟩
    rcases lt_or_ge b.magnitude (10 ^ positionalFrom) with h | h
    · exact absurd hlow (not_le.mpr
        ((Binary.le_of_contains hpos hcontains).2.trans_lt (hcanonical.upper_lt h)))
    · have hlarge := not_lt.mp (not_and.mp hrange h)
      have hlt : (10 : ℚ) ^ positionalBelow < 10 ^ (lead + 1) := hlarge.trans_lt hnext
      have hlt' : (10 : ℚ) ^ lead < 10 ^ positionalBelow := hleast.trans_lt hhigh
      rw [zpow_lt_zpow_iff_right₀ (by norm_num)] at hlt hlt'
      omega
  have hlarge (hwhole : b.isWhole = true) : 10 ^ 16 ≤ b.magnitude := by
    by_contra h
    refine hrange ⟨?_, not_le.mp h⟩
    have hn := Binary.ratio_div hwhole
    generalize b.ratio.1 / b.ratio.2 = n at hn
    rw [hn] at hne ⊢
    have hone : (1 : ℚ) ≤ n := by
      exact_mod_cast Nat.one_le_iff_ne_zero.mpr (Nat.cast_ne_zero.mp hne)
    refine le_trans ?_ hone
    norm_num [positionalFrom]
  have hrender := Decimal.render_scientific
    (Decimal.digits_pos (hleast.trans_lt' (by positivity))) hscientific
  rw [display_render hx hlarge, String.toList_ofList, signed]
  split
  · exact List.mem_cons_of_mem _ hrender
  · exact hrender

theorem isDelimiter_digitChars {c : Char} {n : Nat} (hc : c ∈ digitChars n) :
    Lexer.isDelimiter c = false := by
  have hall : ∀ k : Fin 10, Lexer.isDelimiter (Nat.digitChar k) = false := by decide +kernel
  obtain ⟨ks, hks, hdigits, -⟩ := exists_digits n
  rw [digitChars, hdigits, List.mem_map] at hc
  obtain ⟨k, hk, rfl⟩ := hc
  exact hall ⟨k, hks k hk⟩

theorem isDelimiter_render {c : Char} {d : Decimal} (hc : c ∈ d.render) :
    Lexer.isDelimiter c = false := by
  have hdigits : ∀ c ∈ dropTrailingZeros (digitChars d.digits), Lexer.isDelimiter c = false := by
    intro c hc
    obtain ⟨z, hz⟩ := dropTrailingZeros_append (digitChars d.digits)
    exact isDelimiter_digitChars (hz ▸ List.mem_append_left _ hc)
  have hmarks : ∀ c ∈ ['0', '.', 'e', '+', '-'], Lexer.isDelimiter c = false := by
    simp only [List.forall_mem_cons, List.not_mem_nil, false_implies, implies_true, and_true]
    decide +kernel
  rw [Decimal.render] at hc
  split at hc
  · rcases mem_positional hc with hc | hc | hc
    · exact hdigits c hc
    all_goals exact hmarks c (by simp [hc])
  · rcases mem_scientific hc with hc | hc | hc | hc | hc | hc | hc
    · exact hdigits c hc
    · exact isDelimiter_digitChars hc
    all_goals exact hmarks c (by simp [hc])

theorem isDelimiter_signed {negative : Bool} {cs : List Char}
    (hcs : ∀ c ∈ cs, Lexer.isDelimiter c = false) :
    (signed negative cs).any Lexer.isDelimiter = false := by
  have hminus : Lexer.isDelimiter '-' = false := by decide +kernel
  rw [List.any_eq_false]
  intro c hc
  rw [signed] at hc
  split at hc
  · rcases List.mem_cons.mp hc with rfl | hc
    · simp [hminus]
    · simp [hcs c hc]
  · simp [hcs c hc]

theorem isDelimiter_display {x : Float} {b : Binary} (hx : kind x = .finite b) :
    (display x).toList.any Lexer.isDelimiter = false := by
  by_cases h : b.isWhole = true ∧ b.magnitude < 10 ^ 16
  · obtain ⟨hwhole, hlt⟩ := h
    have hn := Binary.ratio_div hwhole
    rw [display_whole hx hwhole hn (by rw [hn] at hlt; exact_mod_cast hlt), String.toList_ofList]
    exact isDelimiter_signed fun c hc => isDelimiter_digitChars hc
  · rw [display_render hx fun hwhole => not_lt.mp (not_and.mp h hwhole), String.toList_ofList]
    exact isDelimiter_signed fun c hc => isDelimiter_render hc

end Number

theorem read_word {word : String} (hne : word.toList ≠ [])
    (hword : word.toList.any Lexer.isDelimiter = false) {f : Form} :
    read word = .ok f ↔ Form.ofAtom word.toList = .ok f := by
  have hlex := (Writes.token (Token.spelled_atom_iff.mpr ⟨hne, hword⟩)).lex_eq
  rw [read_eq_ok_iff, hlex]
  constructor
  · rintro ⟨-, hderives⟩
    cases hderives with
    | atom h => exact h
  · exact fun h => ⟨rfl, .atom h⟩

theorem Form.ofAtom_eq_number_iff {cs : List Char} {y : Float} :
    ofAtom cs = .ok (.number y) ↔ ∃ l, Number.literal? cs = some l ∧ l.value = y := by
  rw [ofAtom.eq_def]
  constructor
  · intro h
    split at h
    · cases h
    split at h
    · cases h
    split at h
    · rename_i l hl
      exact ⟨l, hl, Form.number.inj (Except.ok.inj h)⟩
    · split at h
      · cases h
      · split at h <;> cases h
  · rintro ⟨l, hl, rfl⟩
    have hne (word : String) (hword : Number.literal? word.toList = none) : cs ≠ word.toList := by
      rintro rfl
      rw [hword] at hl
      cases hl
    rw [if_neg (hne "true" (by decide +kernel)), if_neg (hne "false" (by decide +kernel)), hl]

/-- A finite number is printed as a number that is equal to it if it is zero or its magnitude lies
between two powers of ten. Otherwise it is printed with an exponent, which is not read as a
number. -/
theorem numbers_read_back {x : Float} {b : Number.Binary} (hx : Number.kind x = .finite b)
    (s : Store) :
    (b.IsPlain → ∃ y, read (s.readable (.number x)) = .ok (.number y) ∧ (y == x) = true) ∧
      (¬ b.IsPlain → ∀ y, read (s.readable (.number x)) ≠ .ok (.number y)) := by
  have hreadable : s.readable (.number x) = Number.display x := by
    simp only [Store.readable, Value.display]
  have hne : (Number.display x).toList ≠ [] := by
    by_cases hplain : b.IsPlain
    · obtain ⟨l, hl, -⟩ := Number.literal_of_isPlain hx hplain
      intro hnil
      rw [hnil] at hl
      cases hl
    · exact List.ne_nil_of_mem (Number.mem_display_of_not_isPlain hx hplain)
  simp only [hreadable, read_word hne (Number.isDelimiter_display hx), ne_eq,
    Form.ofAtom_eq_number_iff]
  constructor
  · intro hplain
    obtain ⟨l, hl, hvalue⟩ := Number.literal_of_isPlain hx hplain
    exact ⟨l.value, ⟨l, hl, rfl⟩, hvalue⟩
  · rintro hplain y ⟨l, hl, -⟩
    rw [Number.literal?_eq_none (Number.mem_display_of_not_isPlain hx hplain) (by decide +kernel)
      (by decide) (by decide)] at hl
    cases hl

/-- A fraction with a sign. -/
theorem numbers_read_back_tenth :
    let x := Number.Literal.value ⟨true, [0], [1]⟩
    let b : Number.Binary := ⟨true, 7205759403792794, -56⟩
    Number.kind x = .finite b ∧ b.IsPlain ∧ Store.empty.readable (.number x) = "-0.1" ∧
      ∃ y, read "-0.1" = .ok (.number y) ∧ (y == x) = true := by
  intro x b
  have hx : Number.kind x = .finite b := by decide +kernel
  have hplain : b.IsPlain := by
    right
    norm_num [b, Number.Binary.magnitude, Number.positionalFrom, Number.positionalBelow]
  have htext : Store.empty.readable (.number x) = "-0.1" := by decide +kernel
  exact ⟨hx, hplain, htext, htext ▸ (numbers_read_back hx Store.empty).1 hplain⟩

/-- The least number of seventeen digits is read and printed, but what is printed is not read. -/
theorem large_numbers_are_not_read_back :
    ∃ x, read "10000000000000000" = .ok (.number x) ∧ Number.isFinite x = true ∧
      Store.empty.readable (.number x) = "1e+16" ∧
        read "1e+16" = .error (.invalidNumber "1e+16".toList) := by
  refine ⟨Number.Literal.value ⟨false, 1 :: List.replicate 16 0, []⟩, ?_, ?_, ?_, ?_⟩
  · refine (read_word (by decide) (by decide +kernel)).mpr ?_
    exact Form.ofAtom_eq_number_iff.mpr ⟨_, by decide +kernel, rfl⟩
  · decide +kernel
  · decide +kernel
  · rfl

end Bakehouse
