import Bakehouse.Proofs.Number.Interval

namespace Bakehouse.Number

def Decimal.value (d : Decimal) : ℚ :=
  d.digits * 10 ^ d.exponent

theorem Decimal.digits_pos {d : Decimal} (hd : 0 < d.value) : 0 < d.digits := by
  have hten : (0 : ℚ) < 10 ^ d.exponent := by positivity
  rw [value, mul_pos_iff_of_pos_right hten] at hd
  exact_mod_cast hd

/-- The point of a grid that is taken lies in the interval, and is at least as large as any point
below the center. -/
theorem Interval.onGrid?_spec {i : Interval} {k : Int} {d : Nat} (h : i.onGrid? k = some d) :
    i.Contains (d * 10 ^ k) ∧ ∀ n : Nat, (n * 10 ^ k : ℚ) ≤ i.center * 2 ^ i.scale → n ≤ d := by
  simp only [onGrid?] at h
  have hbelow (n : Nat) (hn : (n * 10 ^ k : ℚ) ≤ i.center * 2 ^ i.scale) :
      n ≤ (scaled i.center i.scale k).1 / (scaled i.center i.scale k).2 := by
    rw [Nat.le_div_iff_mul_le (scaled_eq _ _ _).1]
    exact le_scaled_iff.mpr hn
  split at h
  · rename_i hlower hupper
    cases h
    split
    · exact ⟨holds_iff.mp hupper, fun n hn => (hbelow n hn).trans (Nat.le_succ _)⟩
    · exact ⟨holds_iff.mp hlower, hbelow⟩
  · rename_i hlower _
    cases h
    exact ⟨holds_iff.mp hlower, hbelow⟩
  · rename_i _ hupper
    cases h
    exact ⟨holds_iff.mp hupper, fun n hn => (hbelow n hn).trans (Nat.le_succ _)⟩
  · cases h

theorem Interval.exists_onGrid {i : Interval} {k : Int}
    (h : ∀ n : Nat, (n * 10 ^ k : ℚ) ≤ i.center * 2 ^ i.scale →
      (i.center * 2 ^ i.scale : ℚ) < (n + 1 : Nat) * 10 ^ k →
        i.Contains (n * 10 ^ k) ∨ i.Contains ((n + 1 : Nat) * 10 ^ k)) :
    ∃ d, i.onGrid? k = some d := by
  have hpos := (scaled_eq i.center i.scale k).1
  have hle := le_scaled_iff.mp (Nat.div_mul_le_self (scaled i.center i.scale k).1 _)
  have hlt : (i.center * 2 ^ i.scale : ℚ) < _ := not_le.mp (mt le_scaled_iff.mpr
    (not_le.mpr ((Nat.div_lt_iff_lt_mul hpos).mp (Nat.lt_succ_self _))))
  have h := h _ hle hlt
  rw [← holds_iff, ← holds_iff] at h
  simp only [onGrid?]
  split
  · exact ⟨_, rfl⟩
  · exact ⟨_, rfl⟩
  · exact ⟨_, rfl⟩
  · rename_i hlower hupper
    simp [hlower, hupper] at h

theorem Binary.interval_center (b : Binary) :
    (b.interval.center * 2 ^ b.interval.scale : ℚ) = b.magnitude := by
  have hcenter : (b.interval.center : ℚ) = 4 * b.significand := by simp [interval]
  rw [hcenter, b.pow_scale, magnitude]
  ring

/-- A grid of seventeen digits has a point in the interval: one of the two neighbours of the number
is nearer than half a unit, and the upper one is if the number is a power of two. -/
theorem Binary.exists_onGrid {b : Binary} (hb : 0 < b.significand) (hlt : b.significand < 2 ^ 53)
    {k : Int} (hk : 10 ^ 16 * 10 ^ k ≤ b.magnitude) : ∃ d, b.interval.onGrid? k = some d := by
  have hpos : (0 : ℚ) < 2 ^ b.exponent := by positivity
  have hten : (0 : ℚ) < 10 ^ k := by positivity
  refine Interval.exists_onGrid fun n hle hnext => ?_
  rw [interval_center] at hle hnext
  push_cast at hnext ⊢
  by_cases hnarrow : b.significand = 2 ^ 52
  · rw [magnitude, hnarrow] at hk hle hnext
    push_cast at hk hle hnext
    refine .inr (contains_of_lt hb ?_ (fun _ => ?_) ?_) <;> (try rw [magnitude]) <;>
      rw [hnarrow] <;> push_cast <;> linarith
  · rw [magnitude] at hk hle hnext
    have hm : (b.significand : ℚ) * 2 ^ b.exponent ≤ 2 ^ 53 * 2 ^ b.exponent :=
      mul_le_mul_of_nonneg_right (by exact_mod_cast hlt.le) hpos.le
    by_cases hhalf : b.significand * 2 ^ b.exponent ≤ (n + 1 / 2 : ℚ) * 10 ^ k
    · refine .inl (contains_of_lt hb ?_ (fun h => absurd h hnarrow) ?_) <;> linarith
    · refine .inr (contains_of_lt hb ?_ (fun h => absurd h hnarrow) ?_) <;> linarith

theorem digitCount_pos (n : Nat) : 0 < digitCount n :=
  Nat.length_toDigits_pos

theorem lt_pow_digitCount (n : Nat) : n < 10 ^ digitCount n :=
  (Nat.length_toDigits_le_iff (by decide) (digitCount_pos n)).mp le_rfl

theorem pow_digitCount_le {n : Nat} (hn : 0 < n) : 10 ^ (digitCount n - 1) ≤ n := by
  by_cases h : digitCount n - 1 = 0
  · rw [h, pow_zero]
    exact hn
  · rw [← not_lt, ← Nat.length_toDigits_le_iff (by decide) (Nat.pos_of_ne_zero h)]
    have hpos := digitCount_pos n
    rw [digitCount] at *
    omega

theorem pow_neg_mul_le_iff {n a c : Nat} :
    (10 : ℚ) ^ (-(n : Int)) * a ≤ c ↔ a ≤ c * 10 ^ n := by
  rw [zpow_neg, zpow_natCast, inv_mul_le_iff₀ (by positivity), mul_comm]
  exact_mod_cast Iff.rfl

theorem leadingExponent_spec {num den : Nat} (hnum : 0 < num) (hden : 0 < den) :
    (10 ^ leadingExponent num den : ℚ) ≤ num / den ∧
      (num / den : ℚ) < 10 ^ (leadingExponent num den + 1) := by
  have hden' : (0 : ℚ) < den := by exact_mod_cast hden
  rw [le_div_iff₀ hden', div_lt_iff₀ hden', leadingExponent]
  split
  · rename_i h
    have hle := pow_digitCount_le (Nat.div_pos h hden)
    have hlt := lt_pow_digitCount (num / den)
    obtain ⟨n, hn⟩ : ∃ n, digitCount (num / den) = n + 1 :=
      ⟨_, (Nat.sub_add_cancel (digitCount_pos (num / den))).symm⟩
    rw [hn, Nat.add_sub_cancel, Nat.le_div_iff_mul_le hden] at hle
    rw [hn, Nat.div_lt_iff_lt_mul hden] at hlt
    rw [hn, Nat.cast_succ, add_sub_cancel_right, ← Nat.cast_succ, zpow_natCast, zpow_natCast]
    exact ⟨by exact_mod_cast hle, by exact_mod_cast hlt⟩
  · rename_i h
    have hcount : digitCount num ≤ digitCount den := by
      by_contra hcount
      have hpow : 10 ^ digitCount den ≤ 10 ^ (digitCount num - 1) :=
        Nat.pow_le_pow_right (by decide) (by omega)
      have hle := pow_digitCount_le hnum
      have hlt := lt_pow_digitCount den
      omega
    obtain ⟨guess, hguess⟩ : ∃ guess, digitCount den = digitCount num + guess :=
      ⟨_, (Nat.add_sub_cancel' hcount).symm⟩
    have hupper : num * 10 ^ guess < den * 10 := by
      calc num * 10 ^ guess < 10 ^ digitCount num * 10 ^ guess :=
            Nat.mul_lt_mul_of_pos_right (lt_pow_digitCount num) (by positivity)
        _ = 10 ^ (digitCount den - 1) * 10 := by
            rw [← pow_add, ← hguess, ← pow_succ, Nat.sub_add_cancel (digitCount_pos den)]
        _ ≤ den * 10 := Nat.mul_le_mul_right _ (pow_digitCount_le hden)
    have hlower : den < num * 10 ^ (guess + 1) := by
      calc den < 10 ^ (digitCount num + guess) := hguess ▸ lt_pow_digitCount den
        _ = 10 ^ (digitCount num - 1) * 10 ^ (guess + 1) := by
            have := digitCount_pos num
            rw [← pow_add]
            congr 1
            omega
        _ ≤ num * 10 ^ (guess + 1) := Nat.mul_le_mul_right _ (pow_digitCount_le hnum)
    rw [hguess, Nat.add_sub_cancel_left]
    simp only [Nat.pow_eq]
    split
    · rename_i hguessed
      refine ⟨pow_neg_mul_le_iff.mpr hguessed, ?_⟩
      have hlt := not_le.mp (mt pow_neg_mul_le_iff.mp (not_le.mpr hupper))
      rw [Nat.cast_mul, mul_comm (den : ℚ), ← mul_assoc] at hlt
      rw [zpow_add₀ (by norm_num), zpow_one]
      exact_mod_cast hlt
    · rename_i hguessed
      rw [neg_add, neg_add_cancel_right, ← neg_add, ← Nat.cast_succ]
      exact ⟨pow_neg_mul_le_iff.mpr hlower.le, not_le.mp (mt pow_neg_mul_le_iff.mp hguessed)⟩

theorem Interval.search_spec (i : Interval) (lead : Int) (left tried : Nat)
    (h : ∃ t d, tried ≤ t ∧ t < tried + left ∧ i.onGrid? (lead - t) = some d) :
    ∃ t d, t < tried + left ∧ i.onGrid? (lead - t) = some d ∧
      i.search lead left tried = ⟨d, lead - t⟩ := by
  induction left generalizing tried with
  | zero =>
      obtain ⟨t, d, hle, hlt, -⟩ := h
      omega
  | succ left ih =>
      cases hgrid : i.onGrid? (lead - tried) with
      | some d => exact ⟨tried, d, by omega, hgrid, by simp only [search, hgrid]⟩
      | none =>
          obtain ⟨t, d, hle, hlt, ht⟩ := h
          have hne : tried ≠ t := by
            rintro rfl
            rw [hgrid] at ht
            cases ht
          obtain ⟨t', d', hlt', ht', hsearch⟩ :=
            ih (tried + 1) ⟨t, d, by omega, by omega, ht⟩
          exact ⟨t', d', by omega, ht', by simp only [search, hgrid, hsearch]⟩

/-- The shortest decimal lies in the interval of its number, has seventeen digits at most, and is
not below the leading power of ten. -/
theorem shortest_spec {b : Binary} (hb : 0 < b.significand) (hlt : b.significand < 2 ^ 53) :
    ∃ lead : Int, 10 ^ lead ≤ b.magnitude ∧ b.magnitude < 10 ^ (lead + 1) ∧
      b.interval.Contains (shortest b).value ∧ 10 ^ lead ≤ (shortest b).value ∧
        lead - 16 ≤ (shortest b).exponent := by
  have hratio : 0 < b.ratio.1 := by
    rw [Binary.ratio]
    split
    · exact Nat.mul_pos hb (Nat.pow_pos (by decide))
    · exact hb
  obtain ⟨hle, hnext⟩ := leadingExponent_spec hratio b.ratio_pos
  rw [← b.magnitude_eq] at hle hnext
  generalize hlead : leadingExponent b.ratio.1 b.ratio.2 = lead at *
  have hpow (t : Nat) : (10 ^ t * 10 ^ (lead - t) : ℚ) = 10 ^ lead := by
    rw [← zpow_natCast, ← zpow_add₀ (by norm_num), add_sub_cancel]
  obtain ⟨d, hd⟩ := Binary.exists_onGrid hb hlt (k := lead - (16 : Nat)) (by rwa [hpow])
  obtain ⟨t, d, ht, hgrid, hsearch⟩ :=
    b.interval.search_spec lead 17 0 ⟨16, d, by omega, by omega, hd⟩
  have hshortest : shortest b = ⟨d, lead - t⟩ := by
    rw [shortest, if_neg (by simpa using hb.ne'), hlead, hsearch]
  obtain ⟨hcontains, hleast⟩ := Interval.onGrid?_spec hgrid
  have hdigits : 10 ^ t ≤ d := by
    refine hleast _ ?_
    rw [b.interval_center]
    push_cast
    rwa [hpow]
  rw [hshortest]
  refine ⟨lead, hle, hnext, hcontains, ?_, by simp only; omega⟩
  rw [← hpow t, Decimal.value]
  exact mul_le_mul_of_nonneg_right (by exact_mod_cast hdigits) (by positivity)

end Bakehouse.Number
