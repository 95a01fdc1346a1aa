import Bindlang.Binding.Parser
import Bindlang.Proofs.Decimal.ExactReading
import Bindlang.Proofs.Decimal.NumberGrammar

namespace Bindlang.NumberText

open Text

theorem digits_toDigits (n : Nat) : Digits (Nat.toDigits 10 n) :=
  ⟨Nat.toDigits_ne_nil, fun _ member => Nat.isDigit_of_mem_toDigits (by decide) (by decide) member⟩

theorem head_toDigits_ne_zero {n : Nat} (pos : 0 < n) :
    (Nat.toDigits 10 n).head? ≠ some '0' := by
  induction n using Nat.strongRecOn with
  | ind n ih =>
    rw [Nat.toDigits_eq_if (by decide)]
    split
    · rename_i small
      intro first
      have zero : n.digitChar = '0' := by simpa using first
      have := Nat.toNat_digitChar_sub_48_of_lt_ten small
      rw [zero] at this
      change 0 = n at this
      omega
    · have before := ih (n / 10) (by omega) (by omega)
      rw [List.head?_append_of_ne_nil _ Nat.toDigits_ne_nil]
      exact before

theorem isWhole_toDigits (n : Nat) : IsWhole (Nat.toDigits 10 n) := by
  refine ⟨digits_toDigits n, fun first => ?_⟩
  rcases Nat.eq_zero_or_pos n with rfl | pos
  · rfl
  · exact absurd first (head_toDigits_ne_zero pos)

theorem isMagnitude_toDigits (n : Nat) : IsMagnitude (Nat.toDigits 10 n) ⟨n, 0⟩ := by
  have magnitude := isMagnitude_of_isWhole (isWhole_toDigits n)
  rwa [Nat.ofDigitChars_ten_toDigits] at magnitude

theorem isNumber_writeInteger (n : Int) : IsNumber (writeInteger n) (n < 0) ⟨n.natAbs, 0⟩ := by
  unfold writeInteger
  split
  · rename_i negative
    rw [decide_eq_true negative]
    exact .negative (isMagnitude_toDigits _)
  · rename_i notNegative
    rw [decide_eq_false notNegative]
    exact .positive (isMagnitude_toDigits _)

theorem readInt64_of_digits {text : List Char} (digits : Digits text) :
    readInt64? text = toInt64? (Nat.ofDigitChars 10 text 0) := by
  obtain ⟨c, more, rfl, isDigit⟩ := digits.exists_cons
  unfold readInt64?
  split
  · rename_i same
    cases same
    exact absurd isDigit (by decide)
  · rename_i same
    cases same
    exact absurd isDigit (by decide)
  · rw [readDigits_eq digits, Option.bind_some]

theorem readInt64_minus {text : List Char} (digits : Digits text) :
    readInt64? ('-' :: text) = toInt64? (-Nat.ofDigitChars 10 text 0) := by
  rw [readInt64?, readDigits_eq digits, Option.bind_some]

theorem toInt64_toInt (n : Int64) : toInt64? n.toInt = some n := by
  rw [toInt64?, if_pos ⟨n.minValue_le_toInt, n.toInt_le⟩, Int64.ofInt_toInt]

theorem readInt64_writeInteger (n : Int64) : readInt64? (writeInteger n.toInt) = some n := by
  have digits := digits_toDigits n.toInt.natAbs
  unfold writeInteger
  split
  · have same : -(n.toInt.natAbs : Int) = n.toInt := by omega
    rw [readInt64_minus digits, Nat.ofDigitChars_ten_toDigits, same, toInt64_toInt]
  · have same : (n.toInt.natAbs : Int) = n.toInt := by omega
    rw [readInt64_of_digits digits, Nat.ofDigitChars_ten_toDigits, same, toInt64_toInt]

def isFloatText (text : List Char) : Bool :=
  text.any fun c => c == '.' || c == 'e' || c == 'E'

theorem isFloatText_of_digits {text : List Char} (digits : Digits text) :
    isFloatText text = false := by
  rw [isFloatText, List.any_eq_false]
  intro c member
  have isDigit := digits.2 c member
  simp only [Bool.or_eq_true, beq_iff_eq]
  rintro ((rfl | rfl) | rfl) <;> exact absurd isDigit (by decide)

theorem isFloatText_writeInteger (n : Int) : isFloatText (writeInteger n) = false := by
  have digits := isFloatText_of_digits (digits_toDigits n.natAbs)
  unfold writeInteger
  split
  · exact digits
  · exact digits

theorem ofNumber_writeInteger (n : Int64) :
    Literal.ofNumber? (.ofList (writeInteger n.toInt)) = some (.integer n) := by
  have noFloat := isFloatText_writeInteger n.toInt
  rw [isFloatText] at noFloat
  simp only [Literal.ofNumber?, String.toList_ofList, noFloat, readInt64_writeInteger]
  rfl

theorem ofDigitChars_append_zeros (text : List Char) (n : Nat) :
    Nat.ofDigitChars 10 (text ++ FloatFormat.zeros n) 0 = 10 ^ n * Nat.ofDigitChars 10 text 0 := by
  rw [Nat.ofDigitChars_append, FloatFormat.zeros, Nat.ofDigitChars_replicate_zero]

theorem ofDigitChars_zeros_append (text : List Char) (n : Nat) :
    Nat.ofDigitChars 10 (FloatFormat.zeros n ++ text) 0 = Nat.ofDigitChars 10 text 0 := by
  rw [Nat.ofDigitChars_append, FloatFormat.zeros, Nat.ofDigitChars_replicate_zero, Nat.mul_zero]

theorem toFloat_ten_pow_mul (k s : Nat) (e : Int) :
    (Decimal.mk (10 ^ k * s) e).toFloat = (Decimal.mk s (e + k)).toFloat := by
  have trimmed : (Decimal.mk (10 ^ k * s) e).trim = (Decimal.mk s (e + k)).trim := by
    induction k generalizing e with
    | zero => simp
    | succ k ih =>
      rw [Nat.pow_succ', Nat.mul_assoc, Decimal.trim_ten_mul, ih]
      congr 2
      omega
  rw [Decimal.toFloat, trimmed, Decimal.toFloat]

end Bindlang.NumberText

namespace Bindlang.FloatFormat

open NumberText Text

variable {ds : List Char} {d : Decimal}

theorem isDigit_of_mem_zeros {n : Nat} {c : Char} (member : c ∈ zeros n) : c.isDigit = true := by
  rw [(List.mem_replicate.1 member).2]
  rfl

theorem digits_zeros_append (digits : Digits ds) (n : Nat) : Digits (zeros n ++ ds) := by
  refine ⟨by simp [digits.1], fun c member => ?_⟩
  rcases List.mem_append.1 member with zero | member
  · exact isDigit_of_mem_zeros zero
  · exact digits.2 c member

theorem isWhole_append_zeros (digits : Digits ds) (notZero : ds.head? ≠ some '0') (n : Nat) :
    IsWhole (ds ++ zeros n) := by
  refine ⟨⟨by simp [digits.1], fun c member => ?_⟩, fun first => ?_⟩
  · rcases List.mem_append.1 member with member | zero
    · exact digits.2 c member
    · exact isDigit_of_mem_zeros zero
  · rw [List.head?_append_of_ne_nil _ digits.1] at first
    exact absurd first notZero

theorem isWhole_take (digits : Digits ds) (notZero : ds.head? ≠ some '0') {n : Nat} (pos : 0 < n) :
    IsWhole (ds.take n) := by
  obtain ⟨c, more, rfl, isDigit⟩ := digits.exists_cons
  obtain ⟨k, rfl⟩ : ∃ k, n = k + 1 := ⟨n - 1, by omega⟩
  refine ⟨⟨List.cons_ne_nil _ _, fun d member => ?_⟩, fun first => absurd first notZero⟩
  exact digits.2 d (List.mem_of_mem_take member)

theorem isMagnitude_point {whole part : List Char} (isWhole : IsWhole whole)
    (digits : Digits part) :
    IsMagnitude (whole ++ '.' :: part) ⟨Nat.ofDigitChars 10 (whole ++ part) 0, -part.length⟩ := by
  have magnitude := IsMagnitude.mk isWhole (.some digits) .none
  rwa [List.append_nil, Int.zero_sub] at magnitude

theorem isMagnitude_positional (digits : Digits ds) (notZero : ds.head? ≠ some '0') (e : Int) :
    ∃ d, IsMagnitude (positional ds e) d ∧
      d.toFloat = (Decimal.mk (Nat.ofDigitChars 10 ds 0) (e - (ds.length - 1 : Nat))).toFloat := by
  have notEmpty := List.length_pos_iff.2 digits.1
  unfold positional
  -- The point stands before all digits, behind them or between them.
  split
  · have magnitude := isMagnitude_point (isWhole_toDigits 0)
      (digits_zeros_append digits (-e - 1).toNat)
    refine ⟨_, magnitude, ?_⟩
    congr 2
    · exact ofDigitChars_zeros_append ds ((-e - 1).toNat + 1)
    · rw [List.length_append, zeros, List.length_replicate]
      omega
  · split
    · have magnitude := isMagnitude_point
        (isWhole_append_zeros digits notZero (e.toNat + 1 - ds.length)) (digits_toDigits 0)
      refine ⟨_, magnitude, ?_⟩
      have value : Nat.ofDigitChars 10 (ds ++ zeros (e.toNat + 1 - ds.length) ++ ['0']) 0 =
          10 ^ (e.toNat + 1 - ds.length + 1) * Nat.ofDigitChars 10 ds 0 := by
        rw [← ofDigitChars_append_zeros, zeros, zeros, List.replicate_succ', List.append_assoc]
      have same := toFloat_ten_pow_mul (e.toNat + 1 - ds.length + 1) (Nat.ofDigitChars 10 ds 0) (-1)
      rw [← value] at same
      refine same.trans ?_
      congr 2
      omega
    · have digitBehind : Digits (ds.drop (e.toNat + 1)) := by
        refine ⟨?_, fun c member => digits.2 c (List.mem_of_mem_drop member)⟩
        rw [ne_eq, List.drop_eq_nil_iff]
        assumption
      have magnitude := isMagnitude_point (isWhole_take digits notZero (Nat.succ_pos e.toNat))
        digitBehind
      refine ⟨_, magnitude, ?_⟩
      congr 2
      · rw [List.take_append_drop]
      · rw [List.length_drop]
        omega

theorem isExponent_scientific (plusSign : Bool) (e : Int) :
    IsExponent ('e' :: ((if e < 0 then ['-'] else if plusSign then ['+'] else []) ++
      Nat.toDigits 10 e.natAbs)) e := by
  have digits := digits_toDigits e.natAbs
  have value := @Nat.ofDigitChars_ten_toDigits e.natAbs
  by_cases negative : e < 0
  · have same : -(e.natAbs : Int) = e := by omega
    have power := IsExponent.some (.inl rfl) .minus digits
    rw [value, if_pos rfl, same] at power
    rw [if_pos negative]
    exact power
  · have same : (e.natAbs : Int) = e := by omega
    rw [if_neg negative]
    cases plusSign with
    | true =>
      have power := IsExponent.some (.inl rfl) .plus digits
      rw [value, same] at power
      exact power
    | false =>
      have power := IsExponent.some (.inl rfl) .none digits
      rw [value, same] at power
      exact power

theorem isMagnitude_scientific (plusSign : Bool) (digits : Digits ds)
    (notZero : ds.head? ≠ some '0') (e : Int) :
    IsMagnitude (scientific plusSign ds e) ⟨Nat.ofDigitChars 10 ds 0, e - (ds.length - 1 : Nat)⟩ := by
  have power := isExponent_scientific plusSign e
  obtain ⟨c, more, rfl, isDigit⟩ := digits.exists_cons
  have leading : IsWhole [c] := isWhole_take digits notZero Nat.one_pos
  cases more with
  | nil =>
    have magnitude := IsMagnitude.mk leading .none power
    exact magnitude
  | cons d more =>
    have behind : Digits (d :: more) :=
      ⟨List.cons_ne_nil _ _, fun x member => digits.2 x (List.mem_cons_of_mem c member)⟩
    have magnitude := IsMagnitude.mk leading (.some behind) power
    exact magnitude

theorem isMagnitude_decimalText (f : FloatFormat) (pos : 0 < d.significand) :
    ∃ read, IsMagnitude (f.decimalText d) read ∧ read.toFloat = d.toFloat := by
  have digits := digits_toDigits d.significand
  have notZero := head_toDigits_ne_zero pos
  have value := @Nat.ofDigitChars_ten_toDigits d.significand
  unfold decimalText
  simp only
  split
  · obtain ⟨read, magnitude, same⟩ := isMagnitude_positional digits notZero _
    refine ⟨read, magnitude, same.trans ?_⟩
    rw [value, Int.add_sub_cancel]
  · refine ⟨_, isMagnitude_scientific f.plusSign digits notZero _, ?_⟩
    rw [value, Int.add_sub_cancel]

theorem point_mem_positional (ds : List Char) (e : Int) : '.' ∈ positional ds e := by
  unfold positional
  split
  · simp
  · split <;> simp

theorem letter_mem_scientific (plusSign : Bool) (ds : List Char) (e : Int) :
    'e' ∈ scientific plusSign ds e :=
  List.mem_append_right _ List.mem_cons_self

theorem isFloatText_decimalText (f : FloatFormat) (d : Decimal) :
    isFloatText (f.decimalText d) = true := by
  unfold decimalText
  simp only
  split
  · exact List.any_eq_true.2 ⟨'.', point_mem_positional _ _, rfl⟩
  · exact List.any_eq_true.2 ⟨'e', letter_mem_scientific _ _ _, rfl⟩

open Binary64 Float.Model Float.Model.UnpackedFloat

theorem isNumber_signText {text : List Char} (sign : Sign) (magnitude : IsMagnitude text d) :
    IsNumber (signText sign ++ text) (sign == .negative) d := by
  cases sign with
  | positive => exact .positive magnitude
  | negative => exact .negative magnitude

theorem isFloatText_append {text : List Char} (isFloat : isFloatText text = true)
    (before : List Char) :
    isFloatText (before ++ text) = true := by
  rw [isFloatText, List.any_append, Bool.or_eq_true]
  exact .inr isFloat

theorem toFloat_zero (e : Int) : (Decimal.mk 0 e).toFloat = .ofModel (.pack (.zero .positive)) := by
  rw [Decimal.toFloat, Decimal.trim_zero]
  rfl

/-- A finite float's text is that of a number, which is read back as the float. -/
theorem isNumber_chars (f : FloatFormat) {x : Float} (finite : x.isFinite = true) :
    isFloatText (f.chars x) = true ∧ ∃ negative d, IsNumber (f.chars x) negative d ∧
      (if negative then -d.toFloat else d.toFloat) = x := by
  have known : x.toModel.unpack.isFinite = true := finite
  unfold FloatFormat.chars
  cases unpacked : x.toModel.unpack with
  | notANumber => simp [unpacked, UnpackedFloat.isFinite] at known
  | infinity sign => simp [unpacked, UnpackedFloat.isFinite] at known
  | zero sign =>
    have magnitude : IsMagnitude "0.0".toList ⟨0, -1⟩ :=
      isMagnitude_point (isWhole_toDigits 0) (digits_toDigits 0)
    have packed : x = .ofModel (.pack (.zero sign)) := by rw [← unpacked, pack_unpack]
    refine ⟨isFloatText_append rfl _, _, _, isNumber_signText sign magnitude, ?_⟩
    rw [packed, toFloat_zero]
    cases sign <;> rfl
  | finite sign m q pos =>
    obtain ⟨read, magnitude, same⟩ := isMagnitude_decimalText f
      (Decimal.significand_shortest_pos f.tie unpacked)
    refine ⟨isFloatText_append (isFloatText_decimalText f _) _, _, read,
      isNumber_signText sign magnitude, ?_⟩
    rw [same, Decimal.toFloat_shortest f.tie unpacked, abs_eq_ofParts unpacked, eq_ofParts unpacked]
    cases sign with
    | positive => rfl
    | negative => exact neg_ofParts (canonical_of_unpack unpacked)

theorem ofNumber_chars (f : FloatFormat) {x : Float} (finite : x.isFinite = true) :
    Literal.ofNumber? (.ofList (f.chars x)) = some (.float x) := by
  obtain ⟨isFloat, negative, d, isNumber, same⟩ := isNumber_chars f finite
  rw [isFloatText] at isFloat
  simp only [Literal.ofNumber?, String.toList_ofList, isFloat, if_true, readFloat_eq isNumber, same,
    Option.map_some]

end Bindlang.FloatFormat
