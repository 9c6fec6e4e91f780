import Bakehouse.Number.Literal
import Bakehouse.Number.Print
import Bakehouse.Proofs.Number.Shortest
import Bakehouse.Proofs.Number.Conversion

namespace Bakehouse.Number

open Text

theorem digitValue?_digitChar {k : Nat} (hk : k < 10) : digitValue? (Nat.digitChar k) = some k := by
  have hall : ∀ k : Fin 10, digitValue? (Nat.digitChar k) = some k.val := by decide +kernel
  exact hall ⟨k, hk⟩

theorem isDecimalDigit_digitChar {k : Nat} (hk : k < 10) :
    isDecimalDigit (Nat.digitChar k) = true := by
  rw [isDecimalDigit, digitValue?_digitChar hk]
  rfl

theorem digitsValue_append (ks ls : List Nat) :
    digitsValue (ks ++ ls) = digitsValue ks * 10 ^ ls.length + digitsValue ls := by
  induction ls using List.reverseRecOn with
  | nil => simp [digitsValue]
  | append_singleton ls l ih =>
      have hlast (xs : List Nat) : digitsValue (xs ++ [l]) = 10 * digitsValue xs + l := by
        simp [digitsValue]
      rw [← List.append_assoc, hlast, hlast, ih, List.length_append, List.length_singleton,
        pow_succ]
      ring

theorem digitsValue_replicate (n : Nat) : digitsValue (List.replicate n 0) = 0 := by
  induction n with
  | zero => rfl
  | succ n ih => rw [List.replicate_succ', digitsValue_append, ih]; rfl

theorem exists_digits (n : Nat) :
    ∃ ks, (∀ k ∈ ks, k < 10) ∧ Nat.toDigits 10 n = ks.map Nat.digitChar ∧ digitsValue ks = n := by
  induction n using Nat.strongRecOn with
  | ind n ih =>
      rw [Nat.toDigits_eq_if (by decide)]
      split
      · rename_i hn
        exact ⟨[n], by simpa using hn, rfl, by simp [digitsValue]⟩
      · obtain ⟨ks, hks, hdigits, hvalue⟩ := ih (n / 10) (by omega)
        refine ⟨ks ++ [n % 10], ?_, ?_, ?_⟩
        · simp only [List.mem_append, List.mem_singleton]
          rintro k (hk | rfl)
          · exact hks k hk
          · exact Nat.mod_lt _ (by decide)
        · rw [hdigits, List.map_append]
          rfl
        · rw [digitsValue_append, hvalue]
          simp [digitsValue]
          omega

theorem mapM_digitValue? {ks : List Nat} (hks : ∀ k ∈ ks, k < 10) :
    (ks.map Nat.digitChar).mapM digitValue? = some ks := by
  induction ks with
  | nil => rfl
  | cons k ks ih =>
      simp only [List.forall_mem_cons] at hks
      simp [digitValue?_digitChar hks.1, ih hks.2]

theorem digitRun?_eq {ks : List Nat} (hks : ∀ k ∈ ks, k < 10) (hne : ks ≠ []) :
    digitRun? (ks.map Nat.digitChar) = some ks := by
  rw [digitRun?, if_neg (by simpa using hne), mapM_digitValue? hks]

theorem decimal_of_mem_map {ks : List Nat} (hks : ∀ k ∈ ks, k < 10) :
    ∀ c ∈ ks.map Nat.digitChar, isDecimalDigit c = true := by
  simp only [List.mem_map]
  rintro _ ⟨k, hk, rfl⟩
  exact isDecimalDigit_digitChar (hks k hk)

theorem unsigned?_whole (negative : Bool) {ws : List Nat} (hws : ∀ k ∈ ws, k < 10)
    (hne : ws ≠ []) : unsigned? negative (ws.map Nat.digitChar) = some ⟨negative, ws, []⟩ := by
  have htake : (ws.map Nat.digitChar).takeWhile isDecimalDigit = ws.map Nat.digitChar :=
    List.takeWhile_eq_self_iff.mpr (decimal_of_mem_map hws)
  have hdrop : (ws.map Nat.digitChar).dropWhile isDecimalDigit = [] :=
    List.dropWhile_eq_nil_iff.mpr (decimal_of_mem_map hws)
  rw [unsigned?, htake, hdrop]
  simp [digitRun?_eq hws hne]

theorem unsigned?_fraction (negative : Bool) {ws fs : List Nat} (hws : ∀ k ∈ ws, k < 10)
    (hwne : ws ≠ []) (hfs : ∀ k ∈ fs, k < 10) (hfne : fs ≠ []) :
    unsigned? negative (ws.map Nat.digitChar ++ '.' :: fs.map Nat.digitChar) =
      some ⟨negative, ws, fs⟩ := by
  have hpoint : isDecimalDigit '.' = false := by decide +kernel
  rw [unsigned?, List.takeWhile_append_of_pos (decimal_of_mem_map hws),
    List.dropWhile_append_of_pos (decimal_of_mem_map hws),
    List.takeWhile_cons_of_neg (by simp [hpoint]), List.dropWhile_cons_of_neg (by simp [hpoint]),
    List.append_nil]
  simp [digitRun?_eq hws hwne, digitRun?_eq hfs hfne]

theorem digitRun?_eq_none {c : Char} {cs : List Char} (hc : c ∈ cs)
    (hdigit : isDecimalDigit c = false) : digitRun? cs = none := by
  have hvalue : digitValue? c = none := by
    rw [isDecimalDigit] at hdigit
    simpa using hdigit
  have hmapM : cs.mapM digitValue? = none := by
    induction cs with
    | nil => cases hc
    | cons d cs ih =>
        rcases List.mem_cons.mp hc with rfl | hc
        · simp [hvalue]
        · simp [ih hc]
  rw [digitRun?, hmapM, ite_self]

theorem unsigned?_eq_none (negative : Bool) {c : Char} {cs : List Char} (hc : c ∈ cs)
    (hdigit : isDecimalDigit c = false) (hpoint : c ≠ '.') : unsigned? negative cs = none := by
  have hrest : c ∈ cs.dropWhile isDecimalDigit := by
    rw [← List.takeWhile_append_dropWhile (p := isDecimalDigit) (l := cs), List.mem_append] at hc
    refine hc.resolve_left fun hwhole => ?_
    have := List.mem_takeWhile_imp hwhole
    rw [hdigit] at this
    cases this
  rw [unsigned?]
  split
  · rename_i hnil
    rw [hnil] at hrest
    cases hrest
  · rename_i fraction hfraction
    rw [hfraction] at hrest
    have hnone := digitRun?_eq_none ((List.mem_cons.mp hrest).resolve_left hpoint) hdigit
    cases digitRun? (cs.takeWhile isDecimalDigit) with
    | none => rfl
    | some ds => simp [hnone]
  · rfl

/-- A character that is no digit, point or sign. -/
theorem literal?_eq_none {c : Char} {cs : List Char} (hc : c ∈ cs)
    (hdigit : isDecimalDigit c = false) (hpoint : c ≠ '.') (hsign : c ≠ '-') :
    literal? cs = none := by
  rw [literal?.eq_def]
  split
  · exact unsigned?_eq_none true ((List.mem_cons.mp hc).resolve_left hsign) hdigit hpoint
  · exact unsigned?_eq_none false hc hdigit hpoint

/-- What is printed for a number, with the sign in front. -/
def signed (negative : Bool) (cs : List Char) : List Char :=
  if negative then '-' :: cs else cs

theorem literal?_signed {negative : Bool} {cs : List Char} {l : Literal}
    (h : unsigned? negative cs = some l) : literal? (signed negative cs) = some l := by
  cases negative with
  | true => exact h
  | false =>
      rw [signed, if_neg Bool.false_ne_true, literal?.eq_def]
      split
      · rw [unsigned?_eq_none false List.mem_cons_self (by decide +kernel) (by decide)] at h
        cases h
      · exact h

theorem dropTrailingZeros_append (cs : List Char) :
    ∃ z, dropTrailingZeros cs ++ List.replicate z '0' = cs := by
  obtain ⟨z, hz⟩ : ∃ z, cs.reverse.takeWhile (· == '0') = List.replicate z '0' :=
    ⟨_, List.eq_replicate_of_mem fun c hc => by simpa using List.mem_takeWhile_imp hc⟩
  refine ⟨z, ?_⟩
  rw [dropTrailingZeros, ← List.reverse_replicate, ← hz, ← List.reverse_append,
    List.takeWhile_append_dropWhile, List.reverse_reverse]

/-- The digits that are left without the zeros at the end. -/
theorem exists_dropTrailingZeros {ks : List Nat} (hks : ∀ k ∈ ks, k < 10) :
    ∃ ds z, dropTrailingZeros (ks.map Nat.digitChar) = ds.map Nat.digitChar ∧
      ks = ds ++ List.replicate z 0 := by
  obtain ⟨z, hz⟩ := dropTrailingZeros_append (ks.map Nat.digitChar)
  obtain ⟨ds, zs, rfl, hds, hzs⟩ := List.append_eq_map_iff.mp hz
  refine ⟨ds, z, hds.symm, ?_⟩
  have hzeros : zs = List.replicate zs.length 0 := by
    refine List.eq_replicate_of_mem fun k hk => ?_
    have hzero : Nat.digitChar k = '0' :=
      List.eq_of_mem_replicate (hzs ▸ List.mem_map_of_mem hk)
    exact Nat.digitChar_eq_zero.mp hzero
  have hlength : zs.length = z := by
    rw [← List.length_map Nat.digitChar, hzs, List.length_replicate]
  rw [hzeros, hlength]

theorem div_pow_eq {v d a f : Nat} {e : Int} (hv : v = d * 10 ^ a) (he : e = a - f) :
    (v / 10 ^ f : ℚ) = d * 10 ^ e := by
  rw [hv, he, zpow_sub₀ (by norm_num), zpow_natCast, zpow_natCast]
  push_cast
  ring

/-- The point is put where the exponent says, with zeros on either side if need be. -/
theorem positional_eq {ds : List Nat} (hds : ∀ k ∈ ds, k < 10) (hne : ds ≠ []) (point : Int) :
    ∃ ws fs, positional (ds.map Nat.digitChar) point =
        ws.map Nat.digitChar ++ '.' :: fs.map Nat.digitChar ∧
      (∀ k ∈ ws, k < 10) ∧ ws ≠ [] ∧ (∀ k ∈ fs, k < 10) ∧ fs ≠ [] ∧
        (digitsValue (ws ++ fs) / 10 ^ fs.length : ℚ) =
          digitsValue ds * 10 ^ (point - ds.length) ∧
        fs.length ≤ max 1 (ds.length - point).toNat := by
  have hzeros (n : Nat) : ∀ k ∈ List.replicate n 0, k < 10 := fun k hk => by
    rw [List.eq_of_mem_replicate hk]
    decide
  have hzeroChars (n : Nat) : (List.replicate n 0).map Nat.digitChar = List.replicate n '0' := by
    rw [List.map_replicate]
    rfl
  have hlength : 0 < ds.length := List.length_pos_iff.mpr hne
  rw [positional]
  split
  · rename_i hpoint
    obtain ⟨n, rfl⟩ : ∃ n : Nat, point = -n := ⟨(-point).toNat, by omega⟩
    refine ⟨[0], List.replicate n 0 ++ ds, ?_, by simp, by simp, ?_, by simp [hne], ?_, ?_⟩
    · rw [List.map_append, hzeroChars]
      simp
    · exact List.forall_mem_append.mpr ⟨hzeros n, hds⟩
    · refine div_pow_eq (a := 0) ?_ ?_
      · rw [digitsValue_append, digitsValue_append, digitsValue_replicate]
        simp [digitsValue]
      · simp
        omega
    · rw [List.length_append, List.length_replicate]
      omega
  · rename_i hpoint
    obtain ⟨n, rfl⟩ : ∃ n : Nat, point = n := ⟨point.toNat, by omega⟩
    rw [List.length_map, Int.toNat_natCast]
    split
    · rename_i hwhole
      refine ⟨ds ++ List.replicate (n - ds.length) 0, [0], ?_, ?_, ?_, ?_, ?_, ?_, ?_⟩
      · rw [List.map_append, hzeroChars]
        simp
      · exact List.forall_mem_append.mpr ⟨hds, hzeros _⟩
      · simp [hne]
      · simp
      · simp
      · refine div_pow_eq (a := n - ds.length + 1) ?_ ?_
        · rw [digitsValue_append, digitsValue_append, digitsValue_replicate, List.length_replicate]
          simp [digitsValue, pow_succ, mul_assoc]
        · simp
          omega
      · simp
    · rename_i hfraction
      refine ⟨ds.take n, ds.drop n, ?_, ?_, ?_, ?_, ?_, ?_, ?_⟩
      · rw [List.map_take, List.map_drop]
        simp
      · exact fun k hk => hds k (List.mem_of_mem_take hk)
      · simp [hne]; omega
      · exact fun k hk => hds k (List.mem_of_mem_drop hk)
      · simp; omega
      · rw [List.take_append_drop]
        refine div_pow_eq (a := 0) (by simp) ?_
        rw [List.length_drop]
        omega
      · rw [List.length_drop]
        omega

theorem mem_positional {c : Char} {ds : List Char} {point : Int} (h : c ∈ positional ds point) :
    c ∈ ds ∨ c = '0' ∨ c = '.' := by
  rw [positional] at h
  split at h
  · simp only [List.mem_append, List.mem_cons, List.mem_replicate, List.not_mem_nil, or_false] at h
    tauto
  · split at h
    · simp only [List.mem_append, List.mem_cons, List.mem_replicate, List.not_mem_nil,
        or_false] at h
      tauto
    · simp only [List.mem_append, List.mem_cons, List.not_mem_nil, or_false] at h
      rcases h with (h | h) | h
      · exact .inl (List.mem_of_mem_take h)
      · exact .inr (.inr h)
      · exact .inl (List.mem_of_mem_drop h)

theorem mem_scientific {c : Char} {ds : List Char} {lead : Int} (h : c ∈ scientific ds lead) :
    c ∈ ds ∨ c ∈ digitChars lead.natAbs ∨ c = '0' ∨ c = '.' ∨ c = 'e' ∨ c = '+' ∨ c = '-' := by
  rw [scientific.eq_def] at h
  simp only [List.mem_append] at h
  rcases h with (h | h) | h
  · split at h
    · simp only [List.mem_cons] at h ⊢
      tauto
    · exact .inl h
  · simp only [List.mem_cons, List.not_mem_nil, or_false] at h
    split at h <;> tauto
  · split at h
    · simp only [List.mem_cons] at h
      tauto
    · exact .inr (.inl h)

/-- The power of ten of the leading digit. -/
theorem Decimal.leading {d : Decimal} (hd : 0 < d.digits) {lead : Int}
    (hlead : lead = (digitChars d.digits).length + d.exponent - 1) :
    10 ^ lead ≤ d.value ∧ d.value < 10 ^ (lead + 1) := by
  have hten : (0 : ℚ) < 10 ^ d.exponent := by positivity
  have hpos := digitCount_pos d.digits
  have hle := pow_digitCount_le hd
  have hlt := lt_pow_digitCount d.digits
  change lead = digitCount d.digits + d.exponent - 1 at hlead
  obtain ⟨n, hn⟩ : ∃ n, digitCount d.digits = n + 1 := ⟨_, (Nat.sub_add_cancel hpos).symm⟩
  rw [hn] at hle hlt hlead
  have hlower : (10 ^ lead : ℚ) = 10 ^ n * 10 ^ d.exponent := by
    rw [hlead, ← zpow_natCast, ← zpow_add₀ (by norm_num)]
    congr 1
    push_cast
    ring
  have hupper : (10 ^ (lead + 1) : ℚ) = 10 ^ (n + 1) * 10 ^ d.exponent := by
    rw [zpow_add₀ (by norm_num), hlower, zpow_one]
    ring
  rw [hlower, hupper, value, mul_le_mul_iff_left₀ hten, mul_lt_mul_iff_left₀ hten]
  exact ⟨by exact_mod_cast hle, by exact_mod_cast hlt⟩

/-- A decimal is written positionally between two powers of ten. -/
theorem Decimal.isPositional_iff {d : Decimal} (hd : 0 < d.digits) {lead : Int}
    (hlead : lead = (digitChars d.digits).length + d.exponent - 1) :
    (positionalFrom ≤ lead ∧ lead < positionalBelow) ↔
      10 ^ positionalFrom ≤ d.value ∧ d.value < 10 ^ positionalBelow := by
  obtain ⟨hle, hlt⟩ := leading hd hlead
  have hone : (1 : ℚ) < 10 := by norm_num
  refine and_congr ⟨fun h => ?_, fun h => ?_⟩ ⟨fun h => ?_, fun h => ?_⟩
  · exact (zpow_le_zpow_right₀ hone.le h).trans hle
  · have := (zpow_lt_zpow_iff_right₀ hone).mp (h.trans_lt hlt)
    omega
  · exact hlt.trans_le (zpow_le_zpow_right₀ hone.le (by omega))
  · exact (zpow_lt_zpow_iff_right₀ hone).mp (hle.trans_lt h)

theorem Decimal.render_positional {d : Decimal} (hd : 0 < d.digits)
    (hvalue : 10 ^ positionalFrom ≤ d.value ∧ d.value < 10 ^ positionalBelow) (negative : Bool) :
    ∃ l : Literal, unsigned? negative d.render = some l ∧ l.negative = negative ∧
      l.magnitude = d.value ∧ l.fraction.length ≤ max 1 (-d.exponent).toNat := by
  obtain ⟨ks, hks, hdigits, hvalue'⟩ := exists_digits d.digits
  obtain ⟨ds, z, hds, hzeros⟩ := exists_dropTrailingZeros hks
  have hdlt : ∀ k ∈ ds, k < 10 := fun k hk => hks k (by simp [hzeros, hk])
  have hdvalue : d.digits = digitsValue ds * 10 ^ z := by
    rw [← hvalue', hzeros, digitsValue_append, digitsValue_replicate, List.length_replicate,
      add_zero]
  have hne : ds ≠ [] := by
    rintro rfl
    simp [digitsValue] at hdvalue
    omega
  have hlength : (digitChars d.digits).length = ds.length + z := by
    rw [digitChars, hdigits, List.length_map, hzeros, List.length_append, List.length_replicate]
  have hlead := (isPositional_iff hd rfl).mpr hvalue
  obtain ⟨ws, fs, htext, hws, hwne, hfs, hfne, hmagnitude, hshort⟩ := positional_eq hdlt hne
    ((digitChars d.digits).length + d.exponent - 1 + 1)
  have hrender : d.render = ws.map Nat.digitChar ++ '.' :: fs.map Nat.digitChar := by
    rw [render, if_pos hlead, ← htext, digitChars, hdigits, hds]
  refine ⟨⟨negative, ws, fs⟩, ?_, rfl, ?_, ?_⟩
  · rw [hrender]
    exact unsigned?_fraction negative hws hwne hfs hfne
  · have hexponent : (ds.length + z : Nat) + d.exponent - 1 + 1 - ds.length = z + d.exponent := by
      push_cast
      ring
    rw [Literal.magnitude, hmagnitude, value, hlength, hexponent, hdvalue, zpow_add₀ (by norm_num)]
    push_cast
    rw [zpow_natCast, mul_assoc]
  · refine hshort.trans ?_
    rw [hlength]
    omega

theorem Decimal.render_scientific {d : Decimal} (hd : 0 < d.digits)
    (hvalue : ¬ (10 ^ positionalFrom ≤ d.value ∧ d.value < 10 ^ positionalBelow)) :
    'e' ∈ d.render := by
  rw [render, if_neg (mt (isPositional_iff hd rfl).mp hvalue), scientific.eq_def]
  exact List.mem_append_left _ (List.mem_append_right _ List.mem_cons_self)

end Bakehouse.Number
