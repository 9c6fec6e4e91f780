import Bakehouse.Number.Shortest
import Mathlib.Algebra.Order.Field.Power
import Mathlib.Data.Rat.Cast.Order
import Mathlib.Tactic.FieldSimp
import Mathlib.Tactic.Linarith
import Mathlib.Tactic.NormNum
import Mathlib.Tactic.Positivity
import Mathlib.Tactic.Ring

namespace Bakehouse.Number

/-- The absolute value. -/
def Binary.magnitude (b : Binary) : ℚ :=
  b.significand * 2 ^ b.exponent

/-- The significand takes up all of its bits, unless the exponent is the least one. -/
structure Binary.Canonical (b : Binary) : Prop where
  significand_lt : b.significand < 2 ^ 53
  le_or : 2 ^ 52 ≤ b.significand ∨ b.exponent = -1074
  le_exponent : -1074 ≤ b.exponent
  exponent_le : b.exponent ≤ 971

/-- The significand takes up all of its bits. -/
structure Binary.Normal (b : Binary) : Prop where
  le_significand : 2 ^ 52 ≤ b.significand
  significand_lt : b.significand < 2 ^ 53
  le_exponent : -1074 ≤ b.exponent
  exponent_le : b.exponent ≤ 971

theorem Binary.Normal.significand_pos {b : Binary} (hb : b.Normal) : 0 < b.significand :=
  lt_of_lt_of_le (by decide) hb.le_significand

theorem Binary.ratio_pos (b : Binary) : 0 < b.ratio.2 := by
  rw [ratio]
  split
  · exact Nat.one_pos
  · exact Nat.pow_pos (by decide)

theorem Binary.magnitude_eq (b : Binary) : b.magnitude = b.ratio.1 / b.ratio.2 := by
  rw [magnitude, ratio]
  split
  · rename_i h
    obtain ⟨n, hn⟩ := Int.eq_ofNat_of_zero_le h
    simp [hn]
  · obtain ⟨n, hn⟩ : ∃ n : Nat, b.exponent = -n := ⟨(-b.exponent).toNat, by omega⟩
    simp [hn, div_eq_mul_inv]

/-- The bounds themselves belong to the interval where a tie goes to its number. -/
def Interval.Contains (i : Interval) (x : ℚ) : Prop :=
  if i.closed then i.low * 2 ^ i.scale ≤ x ∧ x ≤ i.high * 2 ^ i.scale
  else i.low * 2 ^ i.scale < x ∧ x < i.high * 2 ^ i.scale

theorem Binary.pow_scale (b : Binary) : (2 : ℚ) ^ b.interval.scale = 2 ^ b.exponent / 4 := by
  rw [show b.interval.scale = b.exponent - 2 from rfl, zpow_sub₀ two_ne_zero]
  norm_num

theorem Binary.high_eq (b : Binary) : (b.interval.high : ℚ) = 4 * b.significand + 2 := by
  simp [interval]

theorem Binary.low_cases {b : Binary} (hb : 0 < b.significand) :
    (b.significand = 2 ^ 52 ∧ b.exponent ≠ -1074 ∧
        (b.interval.low : ℚ) = 4 * b.significand - 1) ∨
      ((b.significand = 2 ^ 52 → b.exponent = -1074) ∧
        (b.interval.low : ℚ) = 4 * b.significand - 2) := by
  by_cases h : b.significand = 2 ^ 52 ∧ b.exponent ≠ -1074
  · refine .inl ⟨h.1, h.2, ?_⟩
    simp [interval, h.1, h.2]
    norm_num
  · refine .inr ⟨fun hm => not_ne_iff.mp (not_and.mp h hm), ?_⟩
    have hlow : b.interval.low = 4 * b.significand - 2 := by
      simp only [interval]
      exact if_neg (by simpa using h)
    rw [hlow, Nat.cast_sub (by omega)]
    push_cast
    rfl

/-- In units of the last place. -/
theorem Binary.contains_iff {b : Binary} {x : ℚ} :
    b.interval.Contains (x * 2 ^ b.exponent) ↔
      if b.significand % 2 = 0 then b.interval.low ≤ 4 * x ∧ 4 * x ≤ b.interval.high
      else b.interval.low < 4 * x ∧ 4 * x < b.interval.high := by
  have hpos : (0 : ℚ) < 2 ^ b.exponent / 4 := by positivity
  have hx : x * 2 ^ b.exponent = 4 * x * (2 ^ b.exponent / 4) := by ring
  have hclosed : b.interval.closed = true ↔ b.significand % 2 = 0 := by simp [interval]
  rw [Interval.Contains, hx, b.pow_scale]
  simp only [mul_le_mul_iff_left₀ hpos, mul_lt_mul_iff_left₀ hpos, hclosed]

/-- Nearer than half a unit is near enough, except below a power of two. -/
theorem Binary.contains_of_lt {b : Binary} (hb : 0 < b.significand) {x : ℚ}
    (hlow : (b.significand - 1 / 2) * 2 ^ b.exponent < x)
    (hnarrow : b.significand = 2 ^ 52 → b.magnitude ≤ x)
    (hhigh : x < (b.significand + 1 / 2) * 2 ^ b.exponent) : b.interval.Contains x := by
  have hpos : (0 : ℚ) < 2 ^ b.exponent := by positivity
  obtain ⟨y, rfl⟩ : ∃ y, x = y * 2 ^ b.exponent := ⟨x / 2 ^ b.exponent, by field_simp⟩
  rw [magnitude, mul_le_mul_iff_left₀ hpos] at hnarrow
  rw [mul_lt_mul_iff_left₀ hpos] at hlow hhigh
  have hlow' : b.interval.low < 4 * y := by
    obtain ⟨hm, -, hlow'⟩ | ⟨-, hlow'⟩ := low_cases hb
    · linarith [hnarrow hm]
    · linarith
  have hhigh' : 4 * y < b.interval.high := by linarith [b.high_eq]
  rw [contains_iff]
  split
  · exact ⟨hlow'.le, hhigh'.le⟩
  · exact ⟨hlow', hhigh'⟩

theorem Binary.contains_magnitude {b : Binary} (hb : 0 < b.significand) :
    b.interval.Contains b.magnitude := by
  have hpos : (0 : ℚ) < 2 ^ b.exponent := by positivity
  refine contains_of_lt hb ?_ (fun _ => le_rfl) ?_ <;> rw [magnitude] <;> linarith

theorem Binary.le_of_contains {b : Binary} (hb : 0 < b.significand) {x : ℚ}
    (h : b.interval.Contains x) : (b.significand - 1 / 2) * 2 ^ b.exponent ≤ x ∧
      x ≤ (b.significand + 1 / 2) * 2 ^ b.exponent := by
  have hpos : (0 : ℚ) < 2 ^ b.exponent := by positivity
  obtain ⟨y, rfl⟩ : ∃ y, x = y * 2 ^ b.exponent := ⟨x / 2 ^ b.exponent, by field_simp⟩
  rw [mul_le_mul_iff_left₀ hpos, mul_le_mul_iff_left₀ hpos]
  have hlow : (4 * b.significand - 2 : ℚ) ≤ b.interval.low := by
    obtain ⟨-, -, hlow⟩ | ⟨-, hlow⟩ := low_cases hb <;> linarith
  have hhigh := b.high_eq
  rw [contains_iff] at h
  split at h <;> constructor <;> linarith [h.1, h.2]

/-- The least number with which a normal number is found lies well above the least of all. -/
theorem Binary.Normal.le_of_contains {b : Binary} (hb : b.Normal) {x : ℚ}
    (h : b.interval.Contains x) : 2 ^ (-1023 : Int) ≤ x := by
  have hm : (2 : ℚ) ^ 51 ≤ b.significand - 1 / 2 := by
    have : (2 : ℚ) ^ 52 ≤ b.significand := by exact_mod_cast hb.le_significand
    linarith
  calc (2 : ℚ) ^ (-1023 : Int) = 2 ^ 51 * 2 ^ (-1074 : Int) := by
        rw [← zpow_natCast, ← zpow_add₀ two_ne_zero]
        norm_num
    _ ≤ (b.significand - 1 / 2) * 2 ^ b.exponent :=
        mul_le_mul hm (zpow_le_zpow_right₀ one_le_two hb.le_exponent) (by positivity)
          (by linarith)
    _ ≤ x := (Binary.le_of_contains hb.significand_pos h).1

theorem pow_toNat {a : ℚ} (ha : a ≠ 0) (s : Int) : a ^ s.toNat = a ^ s * a ^ (-s).toNat := by
  rcases Int.eq_nat_or_neg s with ⟨n, rfl | rfl⟩
  · simp
  · simp [ha]

theorem scaled_eq (n : Nat) (s k : Int) :
    0 < (scaled n s k).2 ∧ ((scaled n s k).1 : ℚ) * 10 ^ k = n * 2 ^ s * (scaled n s k).2 := by
  constructor
  · exact Nat.mul_pos (Nat.pow_pos (by decide)) (Nat.pow_pos (by decide))
  · simp only [scaled, Nat.pow_eq]
    push_cast
    rw [pow_toNat two_ne_zero s, pow_toNat (by norm_num) k]
    ring

theorem scaled_le_iff {n d : Nat} {s k : Int} :
    (scaled n s k).1 ≤ d * (scaled n s k).2 ↔ (n * 2 ^ s : ℚ) ≤ d * 10 ^ k := by
  obtain ⟨hpos, heq⟩ := scaled_eq n s k
  have hden : (0 : ℚ) < (scaled n s k).2 := by exact_mod_cast hpos
  have hten : (0 : ℚ) < 10 ^ k := by positivity
  rw [← Nat.cast_le (α := ℚ), ← mul_le_mul_iff_left₀ hten, heq, Nat.cast_mul,
    mul_right_comm (d : ℚ), mul_le_mul_iff_left₀ hden]

theorem le_scaled_iff {n d : Nat} {s k : Int} :
    d * (scaled n s k).2 ≤ (scaled n s k).1 ↔ (d * 10 ^ k : ℚ) ≤ n * 2 ^ s := by
  obtain ⟨hpos, heq⟩ := scaled_eq n s k
  have hden : (0 : ℚ) < (scaled n s k).2 := by exact_mod_cast hpos
  have hten : (0 : ℚ) < 10 ^ k := by positivity
  rw [← Nat.cast_le (α := ℚ), ← mul_le_mul_iff_left₀ hten, heq, Nat.cast_mul,
    mul_right_comm (d : ℚ), mul_le_mul_iff_left₀ hden]

theorem Interval.holds_iff {i : Interval} {k : Int} {d : Nat} :
    i.holds k d = true ↔ i.Contains (d * 10 ^ k) := by
  have hlow := scaled_le_iff (n := i.low) (d := d) (s := i.scale) (k := k)
  have hhigh := le_scaled_iff (n := i.high) (d := d) (s := i.scale) (k := k)
  have hlow' := le_scaled_iff (n := i.low) (d := d) (s := i.scale) (k := k)
  have hhigh' := scaled_le_iff (n := i.high) (d := d) (s := i.scale) (k := k)
  simp only [holds, Contains]
  split
  · simp [hlow, hhigh]
  · simp only [Bool.and_eq_true, decide_eq_true_eq, ← not_le, hlow', hhigh']

end Bakehouse.Number
