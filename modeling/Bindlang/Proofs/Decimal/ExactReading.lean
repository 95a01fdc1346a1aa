import Bindlang.Decimal.Shortest
import Bindlang.Proofs.Decimal.Binary64

namespace Bindlang

namespace Binary64

open Float.Model Float.Model.UnpackedFloat

variable {m : Nat} {q : Int} {sign : Sign}

theorem log2_mul_two_pow (pos : 0 < m) (j : Nat) : (m * 2 ^ j).log2 = m.log2 + j := by
  have least := Nat.log2_self_le (Nat.ne_of_gt pos)
  have greatest := Nat.lt_log2_self (n := m)
  rw [Nat.log2_eq_iff (by positivity)]
  constructor
  · rw [Nat.pow_add]
    exact Nat.mul_le_mul_right _ least
  · rw [Nat.add_right_comm, Nat.pow_add]
    exact Nat.mul_lt_mul_of_pos_right greatest (by positivity)

theorem exponentLimit_eq : (2 ^ Format.binary64.exponentBits : Int) = 2048 := rfl

theorem targetExponent_eq (total : Int) :
    Format.binary64.targetExponent total = max (total - 53) (-1074) := rfl

theorem Canonical.targetExponent (canonical : Canonical m q) :
    Format.binary64.targetExponent (totalExponent m q) = q := by
  obtain ⟨pos, fits, least, greatest, full⟩ := canonical
  have logFits : m.log2 < 53 := (Nat.log2_lt (by omega)).2 fits
  have logFull : 52 ≤ m.log2 ∨ q = -1074 := by
    rcases full with full | atLeast
    · exact .inl ((Nat.le_log2 (by omega)).2 full)
    · exact .inr atLeast
  rw [targetExponent_eq, totalExponent]
  omega

theorem shiftRight_exact (m j : Nat) :
    (ExtendedMantissa.mk (m * 2 ^ j) false false) >>> j = ⟨m, false, false⟩ := by
  change j.repeat ExtendedMantissa.shiftRightOne _ = _
  induction j generalizing m with
  | zero => simp [Nat.repeat]
  | succ j ih =>
    rw [Nat.pow_succ', ← Nat.mul_assoc, Nat.repeat, ih]
    simp [ExtendedMantissa.shiftRightOne]

theorem shiftToTargetExponent_exact (canonical : Canonical m q) (j : Nat) :
    shiftToTargetExponent .binary64 (m * 2 ^ j) (q - j) .exact = (⟨m, false, false⟩, q) := by
  have total : totalExponent (m * 2 ^ j) (q - j) = totalExponent m q := by
    rw [totalExponent, log2_mul_two_pow canonical.pos, totalExponent]
    omega
  have amount : (q - (q - j)).toNat = j := by omega
  simp only [shiftToTargetExponent, total, canonical.targetExponent, shiftToExponent, amount,
    ExtendedMantissa.ofMantissaAndAccuracy, shiftRight_exact, Int.sub_add_cancel]

theorem roundWithAccuracy_exact (sign : Sign) (canonical : Canonical m q) (pos : 0 < m) (j : Nat) :
    roundWithAccuracy .binary64 sign (m * 2 ^ j) (q - j) .exact = .finite sign m q pos := by
  have again := shiftToTargetExponent_exact canonical 0
  rw [Nat.pow_zero, Nat.mul_one, Int.natCast_zero, Int.sub_zero] at again
  have rounded : (ExtendedMantissa.mk m false false).roundedMantissa = m := rfl
  rw [roundWithAccuracy, shiftToTargetExponent_exact canonical]
  simp only [rounded, again]
  rw [dif_neg (by omega)]

theorem two_zpow_log2_le (pos : 0 < m) (q : Int) : (2 : ℚ) ^ (m.log2 + q) ≤ m * 2 ^ q := by
  have least : (2 ^ m.log2 : ℚ) ≤ m := by exact_mod_cast Nat.log2_self_le (Nat.ne_of_gt pos)
  rw [zpow_add₀ two_ne_zero, zpow_natCast]
  exact mul_le_mul_of_nonneg_right least (by positivity)

theorem lt_two_zpow_log2 (m : Nat) (q : Int) : (m * 2 ^ q : ℚ) < 2 ^ (m.log2 + 1 + q) := by
  have greatest : (m : ℚ) < 2 ^ (m.log2 + 1) := by exact_mod_cast Nat.lt_log2_self (n := m)
  rw [zpow_add₀ two_ne_zero, ← Nat.cast_add_one, zpow_natCast]
  exact mul_lt_mul_of_pos_right greatest (by positivity)

theorem two_zpow_le_ten_zpow {e : Int} (notNegative : 0 ≤ e) : (2 : ℚ) ^ e ≤ 10 ^ e := by
  lift e to Nat using notNegative
  rw [zpow_natCast, zpow_natCast]
  exact pow_le_pow_left₀ (by norm_num) (by norm_num) e

theorem ten_zpow_le_two_zpow {e : Int} (negative : e ≤ 0) : (10 : ℚ) ^ e ≤ 2 ^ e := by
  have inverse := inv_anti₀ (by positivity) (two_zpow_le_ten_zpow (Int.neg_nonneg.2 negative))
  rwa [zpow_neg, zpow_neg, inv_inv, inv_inv] at inverse

variable {s : Nat} {e : Int}

theorem exponent_lt_total (spos : 0 < s) (notNegative : 0 ≤ e)
    (same : (s * 10 ^ e : ℚ) = m * 2 ^ q) : e < m.log2 + 1 + q := by
  have atLeastOne : (1 : ℚ) ≤ s := by exact_mod_cast spos
  have below : (2 : ℚ) ^ e < 2 ^ (m.log2 + 1 + q) :=
    calc (2 : ℚ) ^ e ≤ 10 ^ e := two_zpow_le_ten_zpow notNegative
      _ ≤ s * 10 ^ e := le_mul_of_one_le_left (by positivity) atLeastOne
      _ < 2 ^ (m.log2 + 1 + q) := same ▸ lt_two_zpow_log2 m q
  exact (zpow_lt_zpow_iff_right₀ one_lt_two).1 below

theorem total_le_of_negative (pos : 0 < m) (negative : e ≤ 0)
    (same : (s * 10 ^ e : ℚ) = m * 2 ^ q) : m.log2 + q < s.log2 + 1 + e := by
  have above : (2 : ℚ) ^ (m.log2 + q) < 2 ^ (s.log2 + 1 + e) :=
    calc (2 : ℚ) ^ (m.log2 + q) ≤ m * 2 ^ q := two_zpow_log2_le pos q
      _ = s * 10 ^ e := same.symm
      _ ≤ s * 2 ^ e := mul_le_mul_of_nonneg_left (ten_zpow_le_two_zpow negative) (by positivity)
      _ < 2 ^ (s.log2 + 1 + e) := lt_two_zpow_log2 s e
  exact (zpow_lt_zpow_iff_right₀ one_lt_two).1 above

theorem log2_sub_log2_le {d : Nat} (spos : 0 < s) (same : (s : ℚ) = m * 2 ^ q * d) :
    (s.log2 : Int) - d.log2 ≤ m.log2 + 1 + q := by
  have dpos : 0 < d := by
    rw [Nat.pos_iff_ne_zero]
    rintro rfl
    have : (0 : ℚ) < s := by exact_mod_cast spos
    simp [same] at this
  have least := two_zpow_log2_le spos 0
  have greatest := lt_two_zpow_log2 d 0
  have below : (2 : ℚ) ^ (s.log2 : Int) < 2 ^ (m.log2 + 1 + q + (d.log2 + 1)) :=
    calc (2 : ℚ) ^ (s.log2 : Int) ≤ s := by simpa using least
      _ = m * 2 ^ q * d := same
      _ < 2 ^ (m.log2 + 1 + q) * d :=
        mul_lt_mul_of_pos_right (lt_two_zpow_log2 m q) (by exact_mod_cast dpos)
      _ ≤ 2 ^ (m.log2 + 1 + q) * 2 ^ (d.log2 + 1 : Int) :=
        mul_le_mul_of_nonneg_left (by simpa using greatest.le) (by positivity)
      _ = 2 ^ (m.log2 + 1 + q + (d.log2 + 1)) := (zpow_add₀ two_ne_zero _ _).symm
  have := (zpow_lt_zpow_iff_right₀ one_lt_two).1 below
  omega

theorem divCore_exact {d : Nat} (canonical : Canonical m q) (spos : 0 < s) (dpos : 0 < d)
    (same : (s : ℚ) = m * 2 ^ q * d) :
    ∃ j : Nat, divCore .binary64 s 0 d 0 = (m * 2 ^ j, q - j, .exact) := by
  have shorter := log2_sub_log2_le spos same
  have target := canonical.targetExponent
  rw [targetExponent_eq, totalExponent] at target
  -- The quotient is taken at this exponent, which is low enough for it to be exact.
  let t : Int := min 0 (max ((s.log2 : Int) - d.log2 - 53) (-1074))
  have targetIs : min 0 (Format.binary64.targetExponent
      (totalExponent s 0 - totalExponent d 0)) = t := by
    simp only [targetExponent_eq, totalExponent, t]
    omega
  have notPositive : t ≤ 0 := by omega
  have below : t ≤ q := by omega
  obtain ⟨j, reaches⟩ : ∃ j : Nat, q - t = j := ⟨(q - t).toNat, by omega⟩
  have shifted : s * 2 ^ (-t).toNat = m * 2 ^ j * d := by
    have inRationals : (s * 2 ^ (-t) : ℚ) = m * 2 ^ (q - t) * d := by
      rw [same, sub_eq_add_neg, zpow_add₀ two_ne_zero]
      ring
    rw [reaches, ← Int.toNat_of_nonneg (Int.neg_nonneg.2 notPositive), zpow_natCast,
      zpow_natCast] at inRationals
    exact_mod_cast inRationals
  refine ⟨j, ?_⟩
  simp only [divCore, Int.sub_self, targetIs, Int.zero_sub, Nat.shiftLeft_eq, shifted]
  rw [Nat.mul_div_cancel _ dpos, Nat.mul_mod_left, accuracyOfFraction, if_pos rfl]
  congr 2
  omega

theorem ofScientific_of_nonneg (canonical : Canonical m q) (pos : 0 < m) (spos : 0 < s)
    (notNegative : 0 ≤ e) (same : (s * 10 ^ e : ℚ) = m * 2 ^ q) :
    UnpackedFloat.ofScientific .binary64 s e = .finite .positive m q pos := by
  have short := exponent_lt_total spos notNegative same
  have logFits : m.log2 < 53 := (Nat.log2_lt (by omega)).2 canonical.fits
  have := canonical.greatest
  obtain ⟨j, reaches⟩ : ∃ j : Nat, q + 53 = j := ⟨(q + 53).toNat, by omega⟩
  have scaled : s <<< 53 * 10 ^ e.toNat = m * 2 ^ j := by
    have inRationals : (s * 2 ^ (53 : Int) * 10 ^ e : ℚ) = m * 2 ^ (q + 53) := by
      rw [zpow_add₀ two_ne_zero, ← mul_assoc, ← same]
      ring
    rw [reaches, ← Int.toNat_of_nonneg notNegative, zpow_natCast, zpow_natCast] at inRationals
    rw [Nat.shiftLeft_eq]
    exact_mod_cast inRationals
  have rounded := roundWithAccuracy_exact .positive canonical pos j
  have same : q - j = -53 + 0 := by omega
  rw [same] at rounded
  rw [UnpackedFloat.ofScientific, exponentLimit_eq, dif_neg (by omega), if_neg (by omega),
    if_neg (by omega), if_pos notNegative]
  simp only [UnpackedFloat.mul, mantissaBits_eq, scaled]
  exact rounded

theorem ofScientific_of_neg (canonical : Canonical m q) (pos : 0 < m) (spos : 0 < s)
    (negative : e < 0) (same : (s * 10 ^ e : ℚ) = m * 2 ^ q) :
    UnpackedFloat.ofScientific .binary64 s e = .finite .positive m q pos := by
  have long := total_le_of_negative pos negative.le same
  have := canonical.least
  have quotient : (s : ℚ) = m * 2 ^ q * (10 ^ (-e).toNat : Nat) := by
    rw [← same, Nat.cast_pow, ← zpow_natCast, Int.toNat_of_nonneg (by omega), zpow_neg, mul_assoc]
    simp [zpow_ne_zero]
  obtain ⟨j, divided⟩ := divCore_exact canonical spos (by positivity) quotient
  have rounded := roundWithAccuracy_exact .positive canonical pos j
  rw [UnpackedFloat.ofScientific, exponentLimit_eq, dif_neg (by omega), if_neg (by omega),
    if_neg (by omega), if_neg (by omega)]
  simp only [UnpackedFloat.div, divided]
  exact rounded

end Binary64

namespace Decimal

open Binary64 Float.Model Float.Model.UnpackedFloat

def value (d : Decimal) : ℚ :=
  d.significand * 10 ^ d.exponent

theorem value_trim (d : Decimal) : d.trim.value = d.value := by
  fun_induction trim d with
  | case1 d zero => simp [value, zero]
  | case2 d notZero zeroLast ih =>
    have significand : d.significand = 10 * (d.significand / 10) := by omega
    have power : (10 : ℚ) ^ (d.exponent + 1) = 10 ^ d.exponent * 10 := zpow_add_one₀ (by norm_num) _
    rw [ih, value, value, power]
    nth_rewrite 2 [significand]
    push_cast
    ring
  | case3 => rfl

theorem trim_trim (d : Decimal) : d.trim.trim = d.trim := by
  fun_induction trim d with
  | case1 => exact trim_zero 0
  | case2 d notZero zeroLast ih => exact ih
  | case3 d notZero lastNotZero => rw [trim, if_neg notZero, if_neg lastNotZero]

theorem toFloat_trim (d : Decimal) : d.trim.toFloat = d.toFloat := by
  rw [toFloat, trim_trim]
  rfl

theorem value_ofBinary (m : Nat) (q : Int) : (ofBinary m q).value = m * 2 ^ q := by
  unfold ofBinary value
  split
  · rename_i notNegative
    lift q to Nat using notNegative
    simp
  · rename_i negative
    obtain ⟨k, rfl⟩ : ∃ k : Nat, q = -k := ⟨(-q).toNat, by omega⟩
    have ten : (10 : ℚ) ^ k = 5 ^ k * 2 ^ k := by rw [← mul_pow]; norm_num
    simp only [Int.neg_neg, Int.toNat_natCast, zpow_neg, zpow_natCast, ten, Nat.pow_eq]
    push_cast
    field_simp

theorem toFloat_eq_ofParts {d : Decimal} {m : Nat} {q : Int} (canonical : Canonical m q)
    (pos : 0 < m) (same : d.value = m * 2 ^ q) : d.toFloat = ofParts .positive m q pos := by
  have trimmed := value_trim d
  rw [same, value] at trimmed
  have spos : 0 < d.trim.significand := by
    rw [Nat.pos_iff_ne_zero]
    intro zero
    have notZero : (m * 2 ^ q : ℚ) ≠ 0 := by positivity
    exact notZero (by simp [← trimmed, zero])
  have result : UnpackedFloat.ofScientific .binary64 d.trim.significand d.trim.exponent =
      .finite .positive m q pos := by
    rcases lt_or_ge d.trim.exponent 0 with negative | notNegative
    · exact ofScientific_of_neg canonical pos spos negative trimmed
    · exact ofScientific_of_nonneg canonical pos spos notNegative trimmed
  rw [toFloat, ofParts, Float.Model.ofScientific, result]

variable {x : Float} {sign : Sign} {m : Nat} {q : Int} {pos : 0 < m}

/-- The shortest decimal of a float is read as the float's magnitude. -/
theorem toFloat_shortest (tie : Tie) (unpacked : x.toModel.unpack = .finite sign m q pos) :
    (shortest tie x.abs m q).toFloat = x.abs := by
  unfold shortest
  simp only
  rw [toFloat_trim]
  -- A decimal on one of the grids was tried before it is taken; if there is none, the exact one is.
  cases found : (List.range 17).findSome? _ with
  | some d =>
    obtain ⟨i, _, reads⟩ := List.exists_of_findSome?_eq_some found
    exact onGrid_reads reads
  | none =>
    rw [abs_eq_ofParts unpacked]
    exact toFloat_eq_ofParts (canonical_of_unpack unpacked) pos (value_ofBinary m q)

theorem significand_shortest_pos (tie : Tie)
    (unpacked : x.toModel.unpack = .finite sign m q pos) :
    0 < (shortest tie x.abs m q).significand := by
  have reads := toFloat_shortest tie unpacked
  have packed := unpack_pack_finite .positive (canonical_of_unpack unpacked) pos
  generalize shortest tie x.abs m q = d at reads
  rw [abs_eq_ofParts unpacked, toFloat, ofParts] at reads
  rw [Nat.pos_iff_ne_zero]
  intro zero
  have isZero : d.trim = ⟨0, 0⟩ := by rw [trim, if_pos zero]
  rw [isZero] at reads
  have same := congrArg (fun y => y.toModel.unpack) reads
  change UnpackedFloat.zero .positive =
    UnpackedFloat.unpack .binary64 (UnpackedFloat.pack .binary64 _) at same
  rw [packed] at same
  cases same

end Decimal
end Bindlang
