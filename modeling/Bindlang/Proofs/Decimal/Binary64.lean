import Bindlang.Decimal
import Mathlib

namespace Bindlang.Binary64

open Float.Model Float.Model.UnpackedFloat

/-- Mantissa and exponent of a finite float other than zero, as the format keeps them. -/
structure Canonical (m : Nat) (q : Int) : Prop where
  pos : 0 < m
  fits : m < 2 ^ 53
  least : -1074 ≤ q
  greatest : q ≤ 971
  full : 2 ^ 52 ≤ m ∨ q = -1074

variable {m : Nat} {q : Int} {sign : Sign}

theorem exponentBias_eq : (Format.binary64.exponentBias : Int) = 1023 := rfl

theorem mantissaBits_eq : Format.binary64.mantissaBits = 53 := rfl

theorem toNat_one_append (v : BitVec 52) : (1#1 ++ v).toNat = 2 ^ 52 + v.toNat := by
  rw [BitVec.toNat_append, ← Nat.shiftLeft_add_eq_or_of_lt v.isLt]
  rfl

/-- Only a full mantissa has an exponent of its own. -/
def exponentField (m : Nat) (q : Int) : BitVec 11 :=
  if 2 ^ 52 ≤ m then BitVec.ofNat 11 (q + 1075).toNat else 0#11

theorem toNat_exponentField (canonical : Canonical m q) :
    (exponentField m q).toNat = if 2 ^ 52 ≤ m then (q + 1075).toNat else 0 := by
  have := canonical.greatest
  unfold exponentField
  split
  · exact Nat.mod_eq_of_lt (by omega)
  · rfl

theorem pack_finite (canonical : Canonical m q) (pos : 0 < m) :
    UnpackedFloat.pack .binary64 (.finite sign m q pos) =
      packComponents .binary64 sign (exponentField m q) (BitVec.ofNat 52 m) := by
  have biased : q + Format.binary64.exponentBias + (52 : Nat) = q + 1075 := by
    rw [exponentBias_eq]
    omega
  have small : ¬2 ^ 11 ≤ (q + 1075).toNat + 1 := by
    have := canonical.greatest
    omega
  have isFull : m.log2 + 1 = Format.binary64.mantissaBits ↔ 2 ^ 52 ≤ m := by
    rw [mantissaBits_eq, Nat.add_right_cancel_iff, Nat.log2_eq_iff (by omega)]
    exact and_iff_left canonical.fits
  simp only [UnpackedFloat.pack, biased, small, if_false, isFull, exponentField]
  split <;> rfl

theorem canonical_of_bits {pos : 0 < m} {b : BitVec Format.binary64.numBits}
    (unpacked : UnpackedFloat.unpack .binary64 b = .finite sign m q pos) : Canonical m q := by
  have mantissaFits : (unpackMantissa b).toNat < 2 ^ 52 := (unpackMantissa b).isLt
  have exponentFits : (unpackExponent b).toNat < 2 ^ 11 := (unpackExponent b).isLt
  rw [UnpackedFloat.unpack] at unpacked
  simp only [toNat_one_append, exponentBias_eq] at unpacked
  -- The last exponent is that of infinity and non-numbers, the first that of zero and of mantissas
  -- which are not full.
  split at unpacked
  · split at unpacked <;> cases unpacked
  · rename_i notLast
    split at unpacked
    · rename_i first
      split at unpacked
      · cases unpacked
      · have zero : (unpackExponent b).toNat = 0 := by rw [first]; rfl
        cases unpacked
        constructor <;> omega
    · rename_i notFirst
      cases unpacked
      have : (unpackExponent b).toNat ≠ 2047 := fun last => notLast (BitVec.eq_of_toNat_eq last)
      have : (unpackExponent b).toNat ≠ 0 := fun first => notFirst (BitVec.eq_of_toNat_eq first)
      constructor <;> omega

theorem unpack_pack_finite (sign : Sign) (canonical : Canonical m q) (pos : 0 < m) :
    UnpackedFloat.unpack .binary64 (UnpackedFloat.pack .binary64 (.finite sign m q pos)) =
      .finite sign m q pos := by
  have exponentIs := toNat_exponentField canonical
  rw [pack_finite canonical, UnpackedFloat.unpack]
  simp only [unpackMantissa_packComponents, unpackExponent_packComponents,
    unpackSign_packComponents, Sign.ofBitVec_toBitVec, toNat_one_append]
  obtain ⟨_, fits, least, greatest, full⟩ := canonical
  have mantissaIs : (BitVec.ofNat 52 m).toNat = m % 2 ^ 52 := rfl
  have notLast : exponentField m q ≠ -1#11 := by
    intro last
    rw [last] at exponentIs
    change 2047 = _ at exponentIs
    split at exponentIs <;> omega
  rw [if_neg notLast]
  by_cases isFull : 2 ^ 52 ≤ m
  · rw [if_pos isFull] at exponentIs
    have notFirst : exponentField m q ≠ 0#11 := by
      intro first
      rw [first] at exponentIs
      change 0 = _ at exponentIs
      omega
    rw [if_neg notFirst]
    congr 1
    · omega
    · rw [exponentIs, exponentBias_eq]
      omega
  · have first : exponentField m q = 0#11 := if_neg isFull
    have notZero : BitVec.ofNat 52 m ≠ 0#52 := by
      intro zero
      rw [zero] at mantissaIs
      change 0 = _ at mantissaIs
      omega
    rw [if_pos first, dif_neg notZero]
    congr 1
    · omega
    · rw [first, exponentBias_eq]
      change (0 : Int) - (1023 + 52) + 1 = q
      omega

theorem pack_unpack (x : Float.Model) : Float.Model.pack x.unpack = x := by
  obtain ⟨bits, valid⟩ := x
  have packed := pack_unpack_of_valid valid
  simp only [Float.Model.pack, Float.Model.unpack, packed]

def ofParts (sign : Sign) (m : Nat) (q : Int) (pos : 0 < m) : Float :=
  .ofModel (.pack (.finite sign m q pos))

variable {x : Float} {pos : 0 < m}

theorem canonical_of_unpack (unpacked : x.toModel.unpack = .finite sign m q pos) :
    Canonical m q :=
  canonical_of_bits unpacked

theorem eq_ofParts (unpacked : x.toModel.unpack = .finite sign m q pos) :
    x = ofParts sign m q pos := by
  rw [ofParts, ← unpacked, pack_unpack]

theorem abs_eq_ofParts (unpacked : x.toModel.unpack = .finite sign m q pos) :
    x.abs = ofParts .positive m q pos := by
  rw [Float.abs, Float.Model.abs, unpacked]
  rfl

theorem neg_ofParts (canonical : Canonical m q) :
    -ofParts .positive m q pos = ofParts .negative m q pos := by
  have unpacked :
      (Float.Model.pack (.finite .positive m q pos)).unpack = .finite .positive m q pos :=
    unpack_pack_finite .positive canonical pos
  change Float.ofModel (Float.Model.pack (Float.Model.pack _).unpack.neg) = _
  rw [unpacked]
  rfl

theorem beq_self_of_isFinite (finite : x.isFinite = true) : (x == x) = true := by
  have known : x.toModel.unpack.isFinite = true := finite
  change x.toModel.unpack.beq x.toModel.unpack = true
  cases unpacked : x.toModel.unpack with
  | notANumber => simp [unpacked, UnpackedFloat.isFinite] at known
  | infinity sign => simp [unpacked, UnpackedFloat.isFinite] at known
  | zero sign => rfl
  | finite sign m q pos => cases sign <;> simp [UnpackedFloat.beq, UnpackedFloat.compare]

theorem beq_self_iff : (x == x) = true ↔ x.isNaN = false := by
  rw [Float.beq_self_iff, Float.isNaN_eq_decide_eq_nan, decide_eq_false_iff_not]

theorem beq_symm {y : Float} (same : (x == y) = true) : (y == x) = true := by
  rw [Float.beq_iff_ne_nan_and_eq] at same ⊢
  grind

theorem beq_trans {y z : Float} (first : (x == y) = true) (second : (y == z) = true) :
    (x == z) = true := by
  rw [Float.beq_iff_ne_nan_and_eq] at first second ⊢
  obtain ⟨isNumber, _, first⟩ := first
  obtain ⟨_, isNumber', second⟩ := second
  refine ⟨isNumber, isNumber', ?_⟩
  have signs : (0 : Float) ≠ -0 := by decide +kernel
  grind

theorem isNaN_unpack_packComponents {exponent : BitVec 11} {mantissa : BitVec 52} (sign : Sign)
    (known : exponent = -1#11 → mantissa = 0#52) :
    (UnpackedFloat.unpack .binary64 (packComponents .binary64 sign exponent mantissa)).isNaN =
      false := by
  rw [UnpackedFloat.unpack]
  simp only [unpackMantissa_packComponents, unpackExponent_packComponents]
  split
  · rename_i last
    rw [if_pos (known last)]
    rfl
  · split
    · split <;> rfl
    · rfl

theorem isNaN_pack {f : UnpackedFloat} (isNumber : f.isNaN = false) :
    (Float.ofModel (.pack f)).isNaN = false := by
  change (UnpackedFloat.unpack .binary64 (UnpackedFloat.pack .binary64 f)).isNaN = false
  fun_cases UnpackedFloat.pack .binary64 f with
  | case1 => cases isNumber
  | case2 sign | case3 sign | case4 sign => exact isNaN_unpack_packComponents sign fun _ => rfl
  | case5 sign m q pos bits biased small =>
    -- The last exponent is left to infinity and non-numbers.
    have below : ¬2048 ≤ biased + 1 := small
    refine isNaN_unpack_packComponents sign fun last => ?_
    have value := congrArg BitVec.toNat last
    rw [BitVec.toNat_ofNat, Nat.mod_eq_of_lt (by omega)] at value
    change biased = 2047 at value
    omega
  | case6 sign => exact isNaN_unpack_packComponents sign fun last => absurd last (by decide)

theorem isNaN_neg (isNumber : x.isNaN = false) : (-x).isNaN = false := by
  have known : x.toModel.unpack.isNaN = false := isNumber
  apply isNaN_pack (f := x.toModel.unpack.neg)
  cases unpacked : x.toModel.unpack with
  | notANumber =>
    rw [unpacked] at known
    cases known
  | infinity | zero | finite => rfl

theorem isNaN_roundWithAccuracy (sign : Sign) (m : Nat) (q : Int) (accuracy : Accuracy) :
    (roundWithAccuracy .binary64 sign m q accuracy).isNaN = false := by
  simp only [roundWithAccuracy]
  split <;> rfl

theorem isNaN_ofScientific (s : Nat) (e : Int) :
    (UnpackedFloat.ofScientific .binary64 s e).isNaN = false := by
  fun_cases UnpackedFloat.ofScientific .binary64 s e with
  | case1 | case2 | case3 => rfl
  | case4 | case5 => exact isNaN_roundWithAccuracy ..

theorem isNaN_toFloat (d : Decimal) : d.toFloat.isNaN = false :=
  isNaN_pack (isNaN_ofScientific d.trim.significand d.trim.exponent)

end Bindlang.Binary64
