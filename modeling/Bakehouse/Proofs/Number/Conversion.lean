import Bakehouse.Number.Literal
import Bakehouse.Proofs.Number.Rounding

namespace Bakehouse.Number

open Float.Model Float.Model.UnpackedFloat

/-- The sign bit of a number that is negative, or not. -/
def signOf (negative : Bool) : Sign :=
  if negative then .negative else .positive

theorem toNat_unpackMantissa (v : BitVec 64) :
    (@unpackMantissa .binary64 v).toNat = v.toNat % 2 ^ 52 := by
  simp [unpackMantissa]

theorem toNat_unpackExponent (v : BitVec 64) :
    (@unpackExponent .binary64 v).toNat = v.toNat / 2 ^ 52 % 2048 := by
  simp [unpackExponent, Nat.shiftRight_eq_div_pow]

theorem unpackExponent_eq_iff {v : BitVec 64} {n : Nat} (hn : n < 2048) :
    @unpackExponent .binary64 v = BitVec.ofNat 11 n ↔ v.toNat / 2 ^ 52 % 2048 = n := by
  have hmod : n % 2 ^ 11 = n := Nat.mod_eq_of_lt hn
  rw [← BitVec.toNat_inj, toNat_unpackExponent, BitVec.toNat_ofNat, hmod]

theorem ofBitVec_unpackSign (v : BitVec 64) :
    Sign.ofBitVec (@unpackSign .binary64 v) = signOf (v.toNat / 2 ^ 63 == 1) := by
  have hsign : (@unpackSign .binary64 v).toNat = v.toNat / 2 ^ 63 := by
    have hlt := v.isLt
    simp only [unpackSign, BitVec.toNat_cast, BitVec.extractLsb_toNat, Nat.shiftRight_eq_div_pow]
    exact Nat.mod_eq_of_lt (Nat.div_lt_of_lt_mul hlt)
  rw [← hsign]
  generalize @unpackSign .binary64 v = bit
  rcases BitVec.eq_zero_or_eq_one bit with rfl | rfl <;> rfl

theorem toNat_append_one (v : BitVec 52) : (1#1 ++ v).toNat = 2 ^ 52 + v.toNat := by
  rw [BitVec.toNat_append, ← Nat.shiftLeft_add_eq_or_of_lt v.isLt, Nat.shiftLeft_eq]
  rfl

/-- The parts of a number that is neither infinite nor undefined. -/
theorem unpack_eq {v : BitVec 64} (hfield : v.toNat / 2 ^ 52 % 2048 ≠ 2047) :
    UnpackedFloat.unpack .binary64 v =
      if v.toNat / 2 ^ 52 % 2048 = 0 then
        if h : v.toNat % 2 ^ 52 = 0 then .zero (signOf (v.toNat / 2 ^ 63 == 1))
        else .finite (signOf (v.toNat / 2 ^ 63 == 1)) (v.toNat % 2 ^ 52) (-1074)
          (Nat.pos_of_ne_zero h)
      else .finite (signOf (v.toNat / 2 ^ 63 == 1)) (2 ^ 52 + v.toNat % 2 ^ 52)
        ((v.toNat / 2 ^ 52 % 2048 : Nat) - 1075) (Nat.add_pos_left (by decide) _) := by
  have hmost : @unpackExponent .binary64 v ≠ -1#_ :=
    fun h => hfield ((unpackExponent_eq_iff (by decide)).mp h)
  rw [UnpackedFloat.unpack, if_neg hmost]
  simp only [ofBitVec_unpackSign, toNat_append_one, toNat_unpackMantissa, toNat_unpackExponent,
    Format.exponentBias]
  by_cases hzero : v.toNat / 2 ^ 52 % 2048 = 0
  · rw [if_pos ((unpackExponent_eq_iff (by decide)).mpr hzero), if_pos hzero]
    have hfraction : @unpackMantissa .binary64 v = 0#52 ↔ v.toNat % 2 ^ 52 = 0 := by
      rw [← BitVec.toNat_inj, toNat_unpackMantissa]
      rfl
    by_cases h : v.toNat % 2 ^ 52 = 0
    · rw [dif_pos (hfraction.mpr h), dif_pos h]
    · rw [dif_neg (mt hfraction.mp h), dif_neg h]
      congr 1
      rw [hzero]
      rfl
  · rw [if_neg fun h => hzero ((unpackExponent_eq_iff (by decide)).mp h), if_neg hzero]
    congr 1

/-- How a finite number is made of the fields of its bits. -/
theorem kind_cases {x : Float} {b : Binary} (hx : kind x = .finite b) :
    x.toBits.toNat / 2 ^ 52 % 2048 ≠ 2047 ∧ b.negative = (x.toBits.toNat / 2 ^ 63 == 1) ∧
      ((x.toBits.toNat / 2 ^ 52 % 2048 = 0 ∧ b.significand = x.toBits.toNat % 2 ^ 52 ∧
          b.exponent = -1074) ∨
        (x.toBits.toNat / 2 ^ 52 % 2048 ≠ 0 ∧
          b.significand = 2 ^ 52 + x.toBits.toNat % 2 ^ 52 ∧
            b.exponent = (x.toBits.toNat / 2 ^ 52 % 2048 : Nat) - 1075)) := by
  have hpow : Nat.pow 2 52 = 2 ^ 52 ∧ Nat.pow 2 63 = 2 ^ 63 := ⟨rfl, rfl⟩
  simp only [kind, beq_iff_eq, hpow] at hx
  split at hx
  · split at hx <;> cases hx
  rename_i hfinite
  split at hx
  · rename_i hzero
    cases hx
    exact ⟨hfinite, rfl, .inl ⟨hzero, rfl, rfl⟩⟩
  · rename_i hnormal
    cases hx
    exact ⟨hfinite, rfl, .inr ⟨hnormal, rfl, rfl⟩⟩

theorem canonical_of_kind {x : Float} {b : Binary} (hx : kind x = .finite b) : b.Canonical := by
  have hfield : x.toBits.toNat / 2 ^ 52 % 2048 < 2048 := Nat.mod_lt _ (by decide)
  have hfraction : x.toBits.toNat % 2 ^ 52 < 2 ^ 52 := Nat.mod_lt _ (by decide)
  obtain ⟨hfinite, -, ⟨-, hm, he⟩ | ⟨hnormal, hm, he⟩⟩ := kind_cases hx <;>
    constructor <;> omega

theorem unpack_of_kind {x : Float} {b : Binary} (hx : kind x = .finite b) :
    (b.significand = 0 ∧ x.toModel.unpack = .zero (signOf b.negative)) ∨
      ∃ hpos, x.toModel.unpack = .finite (signOf b.negative) b.significand b.exponent hpos := by
  obtain ⟨negative, significand, exponent⟩ := b
  have hunpack : x.toModel.unpack = UnpackedFloat.unpack .binary64 x.toBits.toBitVec := rfl
  obtain ⟨hfinite, hsign, ⟨hzero, hm, he⟩ | ⟨hnormal, hm, he⟩⟩ := kind_cases hx
  all_goals
    simp only at hsign hm he
    subst hsign hm he
    rw [hunpack, unpack_eq hfinite]
  · rw [if_pos (by exact hzero)]
    by_cases hfraction : x.toBits.toNat % 2 ^ 52 = 0
    · exact .inl ⟨hfraction, dif_pos hfraction⟩
    · exact .inr ⟨Nat.pos_of_ne_zero hfraction, dif_neg hfraction⟩
  · exact .inr ⟨Nat.add_pos_left (by decide) _, if_neg hnormal⟩

/-- A normal number is packed into bits without loss. -/
theorem Binary.Normal.unpack_pack {b : Binary} (hb : b.Normal) (sign : Sign) :
    (Float.Model.pack (.finite sign b.significand b.exponent hb.significand_pos)).unpack =
      .finite sign b.significand b.exponent hb.significand_pos := by
  obtain ⟨hlow, hhigh, hleast, hmost⟩ := hb
  obtain ⟨n, hn⟩ : ∃ n : Nat, b.exponent + 1075 = n := ⟨(b.exponent + 1075).toNat, by omega⟩
  have hfield : (b.exponent + Format.binary64.exponentBias +
      Format.binary64.mantissaBitsWithoutImplicit).toNat = n := by
    simp only [Format.exponentBias]
    norm_num
    omega
  have hpack : UnpackedFloat.pack .binary64 (.finite sign b.significand b.exponent (by omega)) =
      packComponents .binary64 sign (BitVec.ofNat 11 n) (BitVec.ofNat 52 b.significand) := by
    simp only [UnpackedFloat.pack, hfield]
    rw [if_neg (by norm_num; omega), if_pos]
    rw [Binary.Normal.log2_significand ⟨hlow, hhigh, hleast, hmost⟩]
    rfl
  have htoNat : (BitVec.ofNat 11 n).toNat = n := by
    rw [BitVec.toNat_ofNat]
    omega
  have hinfinite : BitVec.ofNat 11 n ≠ -1#_ := by
    rw [Ne, ← BitVec.toNat_inj, htoNat]
    change n ≠ 2047
    omega
  have hzero : BitVec.ofNat 11 n ≠ 0#_ := by
    rw [Ne, ← BitVec.toNat_inj, htoNat]
    change n ≠ 0
    omega
  have hsignificand : (1#1 ++ BitVec.ofNat 52 b.significand).toNat = b.significand := by
    rw [toNat_append_one, BitVec.toNat_ofNat]
    omega
  change UnpackedFloat.unpack _ (UnpackedFloat.pack _ _) = _
  rw [hpack, UnpackedFloat.unpack]
  simp only [unpackMantissa_packComponents, unpackExponent_packComponents,
    unpackSign_packComponents, Sign.ofBitVec_toBitVec]
  rw [if_neg hinfinite, if_neg hzero]
  simp only [hsignificand, htoNat]
  congr 1
  simp only [Format.exponentBias]
  norm_num
  omega

theorem Binary.Normal.unpack_div {b : Binary} (hb : b.Normal) {x y : Float} {m₁ m₂ : Nat}
    {e₁ e₂ : Int} {h₁ : 0 < m₁} {h₂ : 0 < m₂} (hx : x.toModel.unpack = .finite .positive m₁ e₁ h₁)
    (hy : y.toModel.unpack = .finite .positive m₂ e₂ h₂)
    (hv : b.interval.Contains (m₁ * 2 ^ e₁ / (m₂ * 2 ^ e₂))) :
    (x / y).toModel.unpack = .finite .positive b.significand b.exponent hb.significand_pos := by
  change (Float.Model.pack (UnpackedFloat.div .binary64 x.toModel.unpack
    y.toModel.unpack)).unpack = _
  rw [hx, hy, div_eq hb .positive .positive h₁ h₂ hv]
  exact hb.unpack_pack .positive

theorem Binary.Normal.unpack_neg {b : Binary} (hb : b.Normal) {x : Float}
    (hx : x.toModel.unpack = .finite .positive b.significand b.exponent hb.significand_pos) :
    (-x).toModel.unpack = .finite .negative b.significand b.exponent hb.significand_pos := by
  change (Float.Model.pack x.toModel.unpack.neg).unpack = _
  rw [hx]
  exact hb.unpack_pack .negative

/-- Small whole numbers are converted without loss. -/
theorem unpack_toFloat {n : Nat} (hpos : 0 < n) (hn : n < 2 ^ 53) :
    ∃ m e, ∃ hm : 0 < m, n.toUInt64.toFloat.toModel.unpack = .finite .positive m e hm ∧
      (m * 2 ^ e : ℚ) = n := by
  have hlog : n.log2 < 53 := (Nat.log2_lt hpos.ne').mpr hn
  have hshift : 2 ^ n.log2 * 2 ^ (52 - n.log2) = 2 ^ 52 := by
    rw [← pow_add, Nat.add_sub_cancel' (by omega)]
  let b : Binary := ⟨false, n * 2 ^ (52 - n.log2), n.log2 - 52⟩
  have hb : b.Normal := by
    refine ⟨?_, ?_, show -1074 ≤ (n.log2 - 52 : Int) by omega,
      show (n.log2 - 52 : Int) ≤ 971 by omega⟩
    · calc 2 ^ 52 = 2 ^ n.log2 * 2 ^ (52 - n.log2) := hshift.symm
        _ ≤ n * 2 ^ (52 - n.log2) := Nat.mul_le_mul_right _ (Nat.log2_self_le hpos.ne')
    · calc n * 2 ^ (52 - n.log2) < 2 ^ (n.log2 + 1) * 2 ^ (52 - n.log2) :=
            Nat.mul_lt_mul_of_pos_right Nat.lt_log2_self (by positivity)
        _ = 2 ^ 53 := by rw [pow_succ, mul_right_comm, hshift, ← pow_succ]
  have hvalue : b.magnitude = n := by
    have hshift : (2 ^ (52 - n.log2) * 2 ^ n.log2 : ℚ) = 2 ^ 52 := by
      rw [mul_comm]
      exact_mod_cast hshift
    simp only [b, Binary.magnitude]
    rw [zpow_sub₀ two_ne_zero, zpow_natCast, mul_div_assoc', div_eq_iff (by positivity)]
    push_cast
    rw [mul_assoc, hshift]
    rfl
  have hround : UnpackedFloat.round .binary64 .positive n 0 =
      .finite .positive b.significand b.exponent hb.significand_pos := by
    refine round_eq hb .positive hpos ?_
    rw [zpow_zero, mul_one, ← hvalue]
    exact Binary.contains_magnitude hb.significand_pos
  have hnormalize : UnpackedFloat.ofUInt64 .binary64 n.toUInt64 =
      UnpackedFloat.round .binary64 .positive n 0 := by
    have hnat : n.toUInt64.toNat = n := by
      rw [Nat.toUInt64, UInt64.toNat_ofNat', Nat.mod_eq_of_lt (by omega)]
    rw [UnpackedFloat.ofUInt64, UnpackedFloat.ofNat, UnpackedFloat.ofInt, UnpackedFloat.normalize,
      hnat, show compare (n : Int) 0 = .gt from Int.compare_eq_gt.mpr (by omega)]
    rfl
  refine ⟨b.significand, b.exponent, hb.significand_pos, ?_, hvalue⟩
  rw [← hb.unpack_pack, ← hround, ← hnormalize]
  rfl

/-- The number is `n` exactly. -/
def Kind.isNatural (n : Nat) : Kind → Bool
  | .finite b => !b.negative && b.ratio.1 == n * b.ratio.2
  | _ => false

theorem unpack_of_isNatural {x : Float} {n : Nat} (hn : 0 < n)
    (hx : (kind x).isNatural n = true) :
    ∃ m e, ∃ hm : 0 < m, x.toModel.unpack = .finite .positive m e hm ∧ (m * 2 ^ e : ℚ) = n := by
  cases hkind : kind x with
  | nan => rw [hkind] at hx; cases hx
  | infinite negative => rw [hkind] at hx; cases hx
  | finite b =>
      rw [hkind] at hx
      simp only [Kind.isNatural, Bool.and_eq_true, Bool.not_eq_true', beq_iff_eq] at hx
      obtain ⟨hpositive, hratio⟩ := hx
      have hvalue : b.magnitude = n := by
        have hden : (0 : ℚ) < b.ratio.2 := by exact_mod_cast b.ratio_pos
        rw [b.magnitude_eq, div_eq_iff hden.ne']
        exact_mod_cast hratio
      rcases unpack_of_kind hkind with ⟨hzero, -⟩ | ⟨hpos, hunpack⟩
      · rw [Binary.magnitude, hzero, Nat.cast_zero, zero_mul] at hvalue
        exact absurd (by exact_mod_cast hvalue) hn.ne
      · rw [hpositive] at hunpack
        exact ⟨_, _, hpos, hunpack, hvalue⟩

theorem isNatural_tenPower : ∀ i : Fin 23,
    (kind Float.exactlyRepresentablePowersOfTen[i]).isNatural (10 ^ i.val) = true := by
  decide +kernel

theorem unpack_tenPower {i : Nat} (hi : i < Float.exactlyRepresentablePowersOfTen.size) :
    ∃ m e, ∃ hm : 0 < m, Float.exactlyRepresentablePowersOfTen[i].toModel.unpack =
      .finite .positive m e hm ∧ (m * 2 ^ e : ℚ) = (10 ^ i : Nat) :=
  unpack_of_isNatural (by positivity) (isNatural_tenPower ⟨i, hi⟩)

/-- The conversion of numbers that are too large for the table of powers. -/
theorem ofScientific_eq {b : Binary} (hb : b.Normal) {m i : Nat} (hm : 0 < m) (hi : i ≤ 2048)
    (hv : b.interval.Contains (m / 10 ^ i)) :
    UnpackedFloat.ofScientific .binary64 m (Int.negOfNat i) =
      .finite .positive b.significand b.exponent hb.significand_pos := by
  rw [UnpackedFloat.ofScientific, dif_neg hm.ne', Int.negOfNat_eq, if_neg (by norm_num),
    if_neg (by norm_num; omega)]
  by_cases hzero : i = 0
  · subst hzero
    have hshift : m <<< Format.binary64.mantissaBits = m * 2 ^ 53 := Nat.shiftLeft_eq m 53
    have hone : 10 ^ (-Int.ofNat 0).toNat = 1 := rfl
    rw [if_pos (by decide)]
    refine mul_eq hb .positive .positive _ _ ?_ ?_
    · rw [hshift, hone]
      omega
    · have hvalue : ((m * 2 ^ 53 : Nat) * 2 ^ (-(53 : Nat) : Int) *
          ((1 : Nat) * 2 ^ (0 : Int)) : ℚ) = m / 10 ^ 0 := by
        push_cast
        norm_num
        ring
      rw [hshift, hone]
      exact hvalue ▸ hv
  · rw [if_neg (by simp; omega)]
    refine div_eq hb .positive .positive hm (by positivity) ?_
    simpa using hv

theorem unpack_ofScientific {b : Binary} (hb : b.Normal) {m i : Nat} (hi : i ≤ 2048)
    (hv : b.interval.Contains (m / 10 ^ i)) :
    (Float.ofScientific m true i).toModel.unpack =
      .finite .positive b.significand b.exponent hb.significand_pos := by
  have hm : 0 < m := by
    have hleast : (0 : ℚ) < 2 ^ (-1023 : Int) := by positivity
    have hquotient : (0 : ℚ) < m / 10 ^ i := hleast.trans_le (hb.le_of_contains hv)
    exact Nat.cast_pos.mp ((div_pos_iff_of_pos_right (by positivity)).mp hquotient)
  rw [Float.ofScientific]
  split
  · rename_i h
    obtain ⟨m₁, e₁, h₁, hunpack₁, hvalue₁⟩ := unpack_toFloat hm h.1
    obtain ⟨m₂, e₂, h₂, hunpack₂, hvalue₂⟩ := unpack_tenPower (Nat.lt_succ_of_le h.2)
    refine hb.unpack_div hunpack₁ hunpack₂ ?_
    rw [hvalue₁, hvalue₂]
    exact_mod_cast hv
  · change (Float.Model.pack (UnpackedFloat.ofScientific .binary64 m (Int.negOfNat i))).unpack = _
    rw [ofScientific_eq hb hm hi hv]
    exact hb.unpack_pack .positive

/-- The fraction that a literal writes, without its sign. -/
def Literal.magnitude (l : Literal) : ℚ :=
  digitsValue (l.whole ++ l.fraction) / 10 ^ l.fraction.length

theorem unpack_value {l : Literal} {b : Binary} (hb : b.Normal) (hsign : l.negative = b.negative)
    (hl : l.fraction.length ≤ 2048) (hv : b.interval.Contains l.magnitude) :
    l.value.toModel.unpack =
      .finite (signOf b.negative) b.significand b.exponent hb.significand_pos := by
  have hpositive := unpack_ofScientific hb hl hv
  rw [Literal.value, ← hsign]
  cases l.negative with
  | false => exact hpositive
  | true => exact hb.unpack_neg hpositive

/-- A literal that lies in the interval of a normal number is read as that number. -/
theorem value_beq {x : Float} {b : Binary} (hx : kind x = .finite b) (hb : b.Normal) {l : Literal}
    (hsign : l.negative = b.negative) (hl : l.fraction.length ≤ 2048)
    (hv : b.interval.Contains l.magnitude) : (l.value == x) = true := by
  rcases unpack_of_kind hx with ⟨hzero, -⟩ | ⟨hpos, hunpack⟩
  · exact absurd hzero hb.significand_pos.ne'
  · change (l.value.toModel.unpack.compare x.toModel.unpack == some .eq) = true
    rw [unpack_value hb hsign hl hv, hunpack]
    cases signOf b.negative <;> simp [UnpackedFloat.compare]

/-- Zero is equal to zero of either sign. -/
theorem zero_beq {x : Float} {b : Binary} (hx : kind x = .finite b) (hb : b.significand = 0) :
    (Literal.value ⟨false, [0], []⟩ == x) = true := by
  have hzero : (Literal.value ⟨false, [0], []⟩).toModel.unpack = .zero .positive := rfl
  rcases unpack_of_kind hx with ⟨-, hunpack⟩ | ⟨hpos, -⟩
  · change ((Literal.value ⟨false, [0], []⟩).toModel.unpack.compare x.toModel.unpack ==
      some .eq) = true
    rw [hzero, hunpack]
    rfl
  · exact absurd hb hpos.ne'

end Bakehouse.Number
