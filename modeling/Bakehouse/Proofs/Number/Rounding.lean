import Bakehouse.Proofs.Number.Interval
import Mathlib

/-!
Rounding. The result of an operation is cut off after some bits, with a note on what was cut off,
and rounded to the nearest significand, ties going to the even one. If it lies in the interval of a
normal number, that number comes out.
-/

namespace Bakehouse.Number

open Float.Model Float.Model.UnpackedFloat

/-- What the accuracy of `m` says of the number that `m` was cut off from. -/
def Locates (m : Nat) : Accuracy → ℚ → Prop
  | .exact, x => x = m
  | .inexact .lt, x => m < x ∧ x < m + 1 / 2
  | .inexact .eq, x => x = m + 1 / 2
  | .inexact .gt, x => m + 1 / 2 < x ∧ x < m + 1

/-- `n` is `x` rounded to a whole number, a tie going to the even one. -/
structure IsNearest (n : Nat) (x : ℚ) : Prop where
  le : n - 1 / 2 ≤ x
  ge : x ≤ n + 1 / 2
  odd : n % 2 = 1 → n - 1 / 2 < x ∧ x < n + 1 / 2

theorem Locates.bounds {m : Nat} {accuracy : Accuracy} {x : ℚ} (h : Locates m accuracy x) :
    m ≤ x ∧ x < m + 1 := by
  match accuracy, h with
  | .exact, h => simp only [Locates] at h; constructor <;> linarith
  | .inexact .lt, ⟨hlow, hhigh⟩ => constructor <;> linarith
  | .inexact .eq, h => simp only [Locates] at h; constructor <;> linarith
  | .inexact .gt, ⟨hlow, hhigh⟩ => constructor <;> linarith

theorem Locates.round {m n : Nat} {accuracy : Accuracy} {x : ℚ} (h : Locates m accuracy x)
    (hn : IsNearest n x) : accuracy.roundToNearestEven m = n := by
  obtain ⟨hle, hge, hodd⟩ := hn
  obtain ⟨hm, hm'⟩ := h.bounds
  have hcases : n = m ∨ n = m + 1 := by
    have hlt : (m : ℚ) < (n + 1 : Nat) := by push_cast; linarith
    have hlt' : (n : ℚ) < (m + 2 : Nat) := by push_cast; linarith
    rw [Nat.cast_lt] at hlt hlt'
    omega
  match accuracy, h with
  | .exact, h =>
    simp only [Locates] at h
    rcases hcases with rfl | rfl
    · rfl
    · push_cast at hle
      linarith
  | .inexact .lt, ⟨hlow, hhigh⟩ =>
    rcases hcases with rfl | rfl
    · rfl
    · push_cast at hle
      linarith
  | .inexact .eq, h =>
    simp only [Locates] at h
    -- The tie is broken by which of the two is even.
    rcases hcases with rfl | rfl
    · have heven : n % 2 ≠ 1 := fun h' => by linarith [hodd h']
      simp only [Accuracy.roundToNearestEven]
      omega
    · have heven : (m + 1) % 2 ≠ 1 := fun h' => by
        have := (hodd h').1
        push_cast at this
        linarith
      simp only [Accuracy.roundToNearestEven]
      omega
  | .inexact .gt, ⟨hlow, hhigh⟩ =>
    rcases hcases with rfl | rfl
    · linarith
    · rfl

/-- `x` cut off after the bits of a mantissa. -/
def Stands (em : ExtendedMantissa) (x : ℚ) : Prop :=
  Locates em.mantissa em.accuracy x

theorem Locates.stands {m : Nat} {accuracy : Accuracy} {x : ℚ} (h : Locates m accuracy x) :
    Stands (.ofMantissaAndAccuracy m accuracy) x := by
  match accuracy, h with
  | .exact, h => exact h
  | .inexact .lt, h => exact h
  | .inexact .eq, h => exact h
  | .inexact .gt, h => exact h

theorem Stands.shiftRightOne {em : ExtendedMantissa} {x : ℚ} (h : Stands em x) :
    Stands em.shiftRightOne (x / 2) := by
  obtain ⟨m, roundBit, stickyBit⟩ := em
  have hm : (m : ℚ) = 2 * (m / 2 : Nat) + (m % 2 : Nat) := by
    exact_mod_cast (Nat.div_add_mod m 2).symm
  rcases Nat.mod_two_eq_zero_or_one m with hmod | hmod <;> rw [hmod] at hm <;>
    cases roundBit <;> cases stickyBit <;>
    simp [Stands, ExtendedMantissa.accuracy, ExtendedMantissa.shiftRightOne, hmod, Locates]
      at h hm ⊢
  all_goals first | linarith | (constructor <;> linarith)

theorem Stands.shiftRight {em : ExtendedMantissa} {x : ℚ} (h : Stands em x) (n : Nat) :
    Stands (em >>> n) (x / 2 ^ n) := by
  change Stands (n.repeat ExtendedMantissa.shiftRightOne em) _
  induction n with
  | zero => simpa [Nat.repeat] using h
  | succ n ih =>
      rw [Nat.repeat, pow_succ, ← div_div]
      exact ih.shiftRightOne

theorem shiftToExponent_add (m : Nat) (e : Int) (accuracy : Accuracy) (n : Nat) :
    shiftToExponent m e accuracy (e + n) =
      (ExtendedMantissa.ofMantissaAndAccuracy m accuracy >>> n, e + n) := by
  have hn : (e + n - e).toNat = n := by omega
  simp only [shiftToExponent, hn]

theorem Locates.shiftToExponent {m : Nat} {accuracy : Accuracy} {x : ℚ}
    (h : Locates m accuracy x) {e t : Int} (ht : e ≤ t) :
    Stands (shiftToExponent m e accuracy t).1 (x * 2 ^ e / 2 ^ t) ∧
      (UnpackedFloat.shiftToExponent m e accuracy t).2 = t := by
  obtain ⟨n, rfl⟩ : ∃ n : Nat, t = e + n := ⟨(t - e).toNat, by omega⟩
  have hquotient : x * 2 ^ e / 2 ^ (e + n) = x / 2 ^ n := by
    rw [zpow_add₀ two_ne_zero, zpow_natCast]
    field_simp
  rw [hquotient, shiftToExponent_add]
  exact ⟨h.stands.shiftRight n, rfl⟩

theorem targetExponent_eq (m : Nat) (e : Int) :
    Format.binary64.targetExponent (totalExponent m e) = max (m.log2 + e - 52) (-1074) := by
  simp only [Format.targetExponent, totalExponent, Format.mantissaBits, Format.minExponent]
  norm_num
  omega

theorem Binary.Normal.log2_significand {b : Binary} (hb : b.Normal) : b.significand.log2 = 52 :=
  (Nat.log2_eq_iff hb.significand_pos.ne').mpr ⟨hb.le_significand, hb.significand_lt⟩

/-- A significand that takes up all bits stays where it is. -/
theorem Binary.Normal.shift_self {b : Binary} (hb : b.Normal) :
    shiftToTargetExponent .binary64 b.significand b.exponent .exact =
      (⟨b.significand, false, false⟩, b.exponent) := by
  have htarget : max ((52 : Nat) + b.exponent - 52) (-1074) = b.exponent + (0 : Nat) := by
    have := hb.le_exponent
    omega
  rw [shiftToTargetExponent, targetExponent_eq, hb.log2_significand, htarget, shiftToExponent_add,
    Nat.cast_zero, add_zero]
  rfl

/-- A significand with one bit more is halved. -/
theorem shift_double {e : Int} (he : -1074 ≤ e) :
    shiftToTargetExponent .binary64 (2 ^ 53) e .exact = (⟨2 ^ 52, false, false⟩, e + 1) := by
  have htarget : max ((53 : Nat) + e - 52) (-1074) = e + (1 : Nat) := by omega
  rw [shiftToTargetExponent, targetExponent_eq, Nat.log2_two_pow, htarget, shiftToExponent_add]
  rfl

theorem Binary.Normal.nearest {b : Binary} (hb : b.Normal) {x : ℚ}
    (h : b.interval.Contains (x * 2 ^ b.exponent)) : IsNearest b.significand x := by
  have hpos : (0 : ℚ) < 2 ^ b.exponent := by positivity
  obtain ⟨hlow, hhigh⟩ := Binary.le_of_contains hb.significand_pos h
  refine ⟨(mul_le_mul_iff_left₀ hpos).mp hlow, (mul_le_mul_iff_left₀ hpos).mp hhigh,
    fun hodd => ?_⟩
  rw [Binary.contains_iff, if_neg (by omega), b.high_eq] at h
  obtain ⟨hm, -, -⟩ | ⟨-, hlow⟩ := Binary.low_cases hb.significand_pos
  · rw [hm] at hodd
    exact absurd hodd (by decide)
  · rw [hlow] at h
    constructor <;> linarith [h.1, h.2]

theorem Binary.Normal.nearest_double {b : Binary} (hb : b.Normal) (hm : b.significand = 2 ^ 52)
    (he : b.exponent ≠ -1074) {x : ℚ} (h : b.interval.Contains (x * 2 ^ b.exponent))
    (hx : x < 2 ^ 52) : IsNearest (2 ^ 53) (2 * x) := by
  obtain ⟨-, -, hlow⟩ | ⟨hwide, -⟩ := Binary.low_cases hb.significand_pos
  · have hle : 4 * 2 ^ 52 - 1 ≤ 4 * x := by
      rw [Binary.contains_iff, hm, if_pos (by decide), hlow, hm] at h
      exact_mod_cast h.1
    refine ⟨?_, ?_, fun hodd => absurd hodd (by decide)⟩ <;> push_cast <;> linarith
  · exact absurd (hwide hm) he

theorem le_leading {x : ℚ} {e j k : Int} (hk : x * 2 ^ e < 2 ^ (k + 1)) (hj : 2 ^ j ≤ x) :
    j + e ≤ k := by
  have hlt : (2 : ℚ) ^ (j + e) < 2 ^ (k + 1) := by
    refine lt_of_le_of_lt ?_ hk
    rw [zpow_add₀ two_ne_zero]
    exact mul_le_mul_of_nonneg_right hj (by positivity)
  rw [zpow_lt_zpow_iff_right₀ one_lt_two] at hlt
  omega

theorem leading_lt {x : ℚ} {e j k : Int} (hk : 2 ^ k ≤ x * 2 ^ e) (hj : x < 2 ^ j) :
    k < j + e := by
  have hlt : (2 : ℚ) ^ k < 2 ^ (j + e) := by
    refine lt_of_le_of_lt hk ?_
    rw [zpow_add₀ two_ne_zero]
    exact mul_lt_mul_of_pos_right hj (by positivity)
  rwa [zpow_lt_zpow_iff_right₀ one_lt_two] at hlt

/-- With the exponent that its leading bit calls for, a number is nearest to the significand. Just
below a power of two that exponent is one less, and the number is nearest to twice the
significand. -/
theorem Binary.Normal.target {b : Binary} (hb : b.Normal) {k : Int} {v : ℚ} (hk : 2 ^ k ≤ v)
    (hk' : v < 2 ^ (k + 1)) (hv : b.interval.Contains v) :
    (max (k - 52) (-1074) = b.exponent ∧ IsNearest b.significand (v / 2 ^ b.exponent)) ∨
      (max (k - 52) (-1074) = b.exponent - 1 ∧ b.significand = 2 ^ 52 ∧
        IsNearest (2 ^ 53) (v / 2 ^ (b.exponent - 1))) := by
  have hpos : (0 : ℚ) < 2 ^ b.exponent := by positivity
  obtain ⟨x, rfl⟩ : ∃ x, v = x * 2 ^ b.exponent := ⟨v / 2 ^ b.exponent, by field_simp⟩
  have hnearest := hb.nearest hv
  have hleast := hb.le_exponent
  have hupper : k < 53 + b.exponent := by
    refine leading_lt hk ?_
    have hm : (b.significand : ℚ) + 1 ≤ 2 ^ 53 := by exact_mod_cast hb.significand_lt
    rw [zpow_ofNat]
    linarith [hnearest.ge]
  rw [mul_div_cancel_right₀ _ hpos.ne']
  by_cases hx : 2 ^ (52 : Int) ≤ x
  · have hlower := le_leading hk' hx
    exact .inl ⟨by omega, hnearest⟩
  · have hupper := leading_lt hk (not_le.mp hx)
    rw [not_le, zpow_ofNat] at hx
    by_cases he : b.exponent = -1074
    · exact .inl ⟨by omega, hnearest⟩
    · have hm : b.significand = 2 ^ 52 := by
        have hlt : (b.significand : ℚ) < (2 ^ 52 + 1 : Nat) := by
          push_cast
          linarith [hnearest.le]
        exact le_antisymm (Nat.lt_succ_iff.mp (Nat.cast_lt.mp hlt)) hb.le_significand
      have hdouble := hb.nearest_double hm he hv hx
      have hlower : 51 + b.exponent ≤ k := by
        refine le_leading hk' ?_
        have := hdouble.le
        push_cast at this
        rw [zpow_ofNat]
        linarith
      have htwice : x * 2 ^ b.exponent / 2 ^ (b.exponent - 1) = 2 * x := by
        rw [zpow_sub₀ two_ne_zero]
        field_simp
      exact .inr ⟨by omega, hm, htwice ▸ hdouble⟩

theorem Locates.leading {m : Nat} {accuracy : Accuracy} {x : ℚ} (h : Locates m accuracy x)
    (hm : 0 < m) (e : Int) :
    2 ^ (m.log2 + e) ≤ x * 2 ^ e ∧ x * 2 ^ e < 2 ^ (m.log2 + e + 1) := by
  have hpos : (0 : ℚ) < 2 ^ e := by positivity
  obtain ⟨hlow, hhigh⟩ := h.bounds
  have hle : (2 : ℚ) ^ m.log2 ≤ m := by exact_mod_cast Nat.log2_self_le hm.ne'
  have hlt : (m + 1 : ℚ) ≤ 2 ^ (m.log2 + 1) := by
    have hlt : m + 1 ≤ 2 ^ (m.log2 + 1) := Nat.lt_log2_self
    exact_mod_cast hlt
  rw [add_right_comm, zpow_add₀ two_ne_zero, zpow_add₀ two_ne_zero, ← Nat.cast_succ, zpow_natCast,
    zpow_natCast, mul_le_mul_iff_left₀ hpos, mul_lt_mul_iff_left₀ hpos]
  exact ⟨hle.trans hlow, hhigh.trans_le hlt⟩

/-- The two shifts of a rounding, and the rounding between them. -/
theorem roundWithAccuracy_of (sign : Sign) {m n n' : Nat} {e t e' : Int} {accuracy : Accuracy}
    (hfirst : (shiftToTargetExponent .binary64 m e accuracy).1.roundedMantissa = n ∧
      (shiftToTargetExponent .binary64 m e accuracy).2 = t)
    (hsecond : shiftToTargetExponent .binary64 n t .exact = (⟨n', false, false⟩, e'))
    (hn : 0 < n') :
    roundWithAccuracy .binary64 sign m e accuracy = .finite sign n' e' hn := by
  rw [roundWithAccuracy]
  simp only [hfirst, hsecond]
  rw [dif_neg hn.ne']

/-- A result in the interval of a normal number is rounded to this number, if it is given with
enough bits. -/
theorem roundWithAccuracy_eq {b : Binary} (hb : b.Normal) (sign : Sign) {m : Nat} {e : Int}
    {accuracy : Accuracy} {x : ℚ} (hx : Locates m accuracy x) (he : e ≤ -1074 ∨ 2 ^ 52 ≤ m)
    (hv : b.interval.Contains (x * 2 ^ e)) :
    roundWithAccuracy .binary64 sign m e accuracy =
      .finite sign b.significand b.exponent hb.significand_pos := by
  have hm : 0 < m := by
    rcases he with he | he
    · have hle : (1 : ℚ) * 2 ^ e ≤ x * 2 ^ e := by
        rw [one_mul]
        exact le_trans (zpow_le_zpow_right₀ one_le_two (by omega)) (hb.le_of_contains hv)
      have hone : (1 : ℚ) ≤ x := le_of_mul_le_mul_right hle (by positivity)
      exact Nat.cast_pos.mp (by linarith [hx.bounds.2] : (0 : ℚ) < m)
    · omega
  have htarget : e ≤ max (m.log2 + e - 52) (-1074) := by
    rcases he with he | he
    · omega
    · have := (Nat.le_log2 hm.ne').mpr he
      omega
  have hfirst {t : Int} (ht : max (m.log2 + e - 52) (-1074) = t) {n : Nat}
      (hn : IsNearest n (x * 2 ^ e / 2 ^ t)) :
      (shiftToTargetExponent .binary64 m e accuracy).1.roundedMantissa = n ∧
        (shiftToTargetExponent .binary64 m e accuracy).2 = t := by
    rw [shiftToTargetExponent, targetExponent_eq, ht]
    obtain ⟨hstands, hexponent⟩ := hx.shiftToExponent (ht ▸ htarget)
    exact ⟨hstands.round hn, hexponent⟩
  obtain ⟨hk, hk'⟩ := hx.leading hm e
  rcases hb.target hk hk' hv with ⟨htop, hnearest⟩ | ⟨htop, hdouble, hnearest⟩
  · exact roundWithAccuracy_of sign (hfirst htop hnearest) hb.shift_self _
  · refine roundWithAccuracy_of sign (hfirst htop hnearest) ?_ _
    rw [shift_double (by omega), hdouble, sub_add_cancel]

theorem roundWithAccuracy_exact {b : Binary} (hb : b.Normal) (sign : Sign) {m : Nat} {e : Int}
    (he : e ≤ -1074 ∨ 2 ^ 52 ≤ m) (hv : b.interval.Contains (m * 2 ^ e)) :
    roundWithAccuracy .binary64 sign m e .exact =
      .finite sign b.significand b.exponent hb.significand_pos :=
  roundWithAccuracy_eq hb sign (show Locates m .exact m from rfl) he hv

theorem round_eq {b : Binary} (hb : b.Normal) (sign : Sign) {m : Nat} {e : Int} (hm : 0 < m)
    (hv : b.interval.Contains (m * 2 ^ e)) :
    UnpackedFloat.round .binary64 sign m e =
      .finite sign b.significand b.exponent hb.significand_pos := by
  simp only [UnpackedFloat.round, targetExponent_eq, decreaseExponent]
  generalize ht : max (m.log2 + e - 52) (-1074) = t
  generalize hn : (e - t).toNat = n
  refine roundWithAccuracy_exact hb sign ?_ ?_
  · by_cases hleast : t = -1074
    · exact .inl (by omega)
    · refine .inr ?_
      have hlog : 52 ≤ m.log2 + n := by omega
      calc 2 ^ 52 ≤ 2 ^ (m.log2 + n) := Nat.pow_le_pow_right (by decide) hlog
        _ = 2 ^ m.log2 * 2 ^ n := pow_add 2 m.log2 n
        _ ≤ m <<< n := by
            rw [Nat.shiftLeft_eq]
            exact Nat.mul_le_mul_right _ (Nat.log2_self_le hm.ne')
  · have hvalue : ((m <<< n : Nat) : ℚ) * 2 ^ (e - n) = m * 2 ^ e := by
      rw [Nat.shiftLeft_eq, zpow_sub₀ two_ne_zero, zpow_natCast]
      push_cast
      field_simp
    rwa [hvalue]

theorem mul_eq {b : Binary} (hb : b.Normal) (s₁ s₂ : Sign) {m₁ m₂ : Nat} {e₁ e₂ : Int}
    (h₁ : 0 < m₁) (h₂ : 0 < m₂) (hm : 2 ^ 52 ≤ m₁ * m₂)
    (hv : b.interval.Contains (m₁ * 2 ^ e₁ * (m₂ * 2 ^ e₂))) :
    UnpackedFloat.mul .binary64 (.finite s₁ m₁ e₁ h₁) (.finite s₂ m₂ e₂ h₂) =
      .finite (s₁ * s₂) b.significand b.exponent hb.significand_pos := by
  rw [UnpackedFloat.mul]
  refine roundWithAccuracy_exact hb _ (.inr hm) ?_
  have hvalue : ((m₁ * m₂ : Nat) * 2 ^ (e₁ + e₂) : ℚ) = m₁ * 2 ^ e₁ * (m₂ * 2 ^ e₂) := by
    rw [zpow_add₀ two_ne_zero]
    push_cast
    ring
  rwa [hvalue]

theorem locates_div {n d : Nat} (hd : 0 < d) :
    Locates (n / d) (accuracyOfFraction (n % d) d) (n / d : ℚ) := by
  have hpos : (0 : ℚ) < d := by exact_mod_cast hd
  have hn : (n / d : ℚ) = (n / d : Nat) + (n % d : Nat) / d := by
    rw [div_eq_iff hpos.ne', add_mul, div_mul_cancel₀ _ hpos.ne']
    exact_mod_cast (Nat.div_add_mod' n d).symm
  have hmod : n % d < d := Nat.mod_lt _ hd
  rw [hn, accuracyOfFraction]
  generalize n / d = q, n % d = r at hmod
  split
  · rename_i hr
    simp [hr, Locates]
  · rename_i hr
    have hfraction : 0 < (r / d : ℚ) :=
      div_pos (by exact_mod_cast Nat.pos_of_ne_zero hr) hpos
    have hone : (r / d : ℚ) < 1 := (div_lt_one hpos).mpr (by exact_mod_cast hmod)
    rcases lt_trichotomy (2 * r) d with h | h | h
    · have hhalf : (r / d : ℚ) < 1 / 2 := by
        have h : (2 * r : ℚ) < d := by exact_mod_cast h
        rw [div_lt_iff₀ hpos]
        linarith
      rw [Nat.compare_eq_lt.mpr h]
      constructor <;> linarith
    · have hhalf : (r / d : ℚ) = 1 / 2 := by
        have h : (2 * r : ℚ) = d := by exact_mod_cast h
        rw [div_eq_iff hpos.ne']
        linarith
      rw [Nat.compare_eq_eq.mpr h, hhalf]
      rfl
    · have hhalf : 1 / 2 < (r / d : ℚ) := by
        have h : (d : ℚ) < 2 * r := by exact_mod_cast h
        rw [lt_div_iff₀ hpos]
        linarith
      rw [Nat.compare_eq_gt.mpr h]
      constructor <;> linarith

/-- A quotient is cut off where there are bits enough to round it. -/
theorem le_shift_div {m₁ m₂ : Nat} (h₁ : 0 < m₁) (h₂ : 0 < m₂) {n : Nat}
    (hn : m₂.log2 + 53 ≤ m₁.log2 + n) : 2 ^ 52 ≤ m₁ <<< n / m₂ := by
  rw [Nat.le_div_iff_mul_le h₂, Nat.shiftLeft_eq]
  calc 2 ^ 52 * m₂ ≤ 2 ^ 52 * 2 ^ (m₂.log2 + 1) := Nat.mul_le_mul_left _ Nat.lt_log2_self.le
    _ = 2 ^ (m₂.log2 + 53) := by rw [← pow_add, add_comm 52, add_assoc]
    _ ≤ 2 ^ (m₁.log2 + n) := Nat.pow_le_pow_right (by decide) hn
    _ = 2 ^ m₁.log2 * 2 ^ n := pow_add 2 m₁.log2 n
    _ ≤ m₁ * 2 ^ n := Nat.mul_le_mul_right _ (Nat.log2_self_le h₁.ne')

theorem div_eq {b : Binary} (hb : b.Normal) (s₁ s₂ : Sign) {m₁ m₂ : Nat} {e₁ e₂ : Int}
    (h₁ : 0 < m₁) (h₂ : 0 < m₂) (hv : b.interval.Contains (m₁ * 2 ^ e₁ / (m₂ * 2 ^ e₂))) :
    UnpackedFloat.div .binary64 (.finite s₁ m₁ e₁ h₁) (.finite s₂ m₂ e₂ h₂) =
      .finite (s₁ / s₂) b.significand b.exponent hb.significand_pos := by
  have htarget : Format.binary64.targetExponent (totalExponent m₁ e₁ - totalExponent m₂ e₂) =
      max (m₁.log2 + e₁ - (m₂.log2 + e₂) - 53) (-1074) := by
    simp only [Format.targetExponent, totalExponent, Format.mantissaBits, Format.minExponent]
    norm_num
    omega
  simp only [UnpackedFloat.div, divCore, htarget]
  generalize ht : min (e₁ - e₂) (max (m₁.log2 + e₁ - (m₂.log2 + e₂) - 53) (-1074)) = t
  obtain ⟨n, hn⟩ : ∃ n : Nat, e₁ - e₂ - t = n := ⟨(e₁ - e₂ - t).toNat, by omega⟩
  rw [hn, Int.toNat_natCast]
  refine roundWithAccuracy_eq hb _ (locates_div h₂) ?_ ?_
  · by_cases hleast : t ≤ -1074
    · exact .inl hleast
    · exact .inr (le_shift_div h₁ h₂ (by omega))
  · have hpos : (0 : ℚ) < m₂ := by exact_mod_cast h₂
    have hvalue : ((m₁ <<< n : Nat) / m₂ : ℚ) * 2 ^ t = m₁ * 2 ^ e₁ / (m₂ * 2 ^ e₂) := by
      rw [show e₁ = n + t + e₂ by omega, zpow_add₀ two_ne_zero, zpow_add₀ two_ne_zero,
        Nat.shiftLeft_eq, zpow_natCast]
      push_cast
      field_simp
    rwa [hvalue]

end Bakehouse.Number
