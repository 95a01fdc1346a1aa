import Bindlang.Decimal.Reader
import Bindlang.Proofs.Data.Collections
import Bindlang.Token.Lexeme

namespace Bindlang.NumberText

open Lexeme

def Digits (text : List Char) : Prop :=
  text ≠ [] ∧ ∀ c ∈ text, c.isDigit = true

/-- A zero stands alone. -/
def IsWhole (text : List Char) : Prop :=
  Digits text ∧ (text.head? = some '0' → text = ['0'])

inductive IsFraction : List Char → List Char → Prop
  | none : IsFraction [] []
  | some {part : List Char} (digits : Digits part) : IsFraction ('.' :: part) part

inductive IsSign : List Char → Bool → Prop
  | none : IsSign [] false
  | plus : IsSign ['+'] false
  | minus : IsSign ['-'] true

inductive IsExponent : List Char → Int → Prop
  | none : IsExponent [] 0
  | some {e : Char} {sign ds : List Char} {negative : Bool} (letter : e = 'e' ∨ e = 'E')
      (isSign : IsSign sign negative) (digits : Digits ds) :
      IsExponent (e :: (sign ++ ds))
        (if negative then -(Nat.ofDigitChars 10 ds 0 : Int) else Nat.ofDigitChars 10 ds 0)

inductive IsMagnitude : List Char → Decimal → Prop
  | mk {whole fraction part power : List Char} {exponent : Int} (isWhole : IsWhole whole)
      (isFraction : IsFraction fraction part) (isExponent : IsExponent power exponent) :
      IsMagnitude (whole ++ (fraction ++ power))
        ⟨Nat.ofDigitChars 10 (whole ++ part) 0, exponent - part.length⟩

/-- A number: whether it is negative, and its magnitude. -/
inductive IsNumber : List Char → Bool → Decimal → Prop
  | positive {text : List Char} {d : Decimal} (magnitude : IsMagnitude text d) :
      IsNumber text false d
  | negative {text : List Char} {d : Decimal} (magnitude : IsMagnitude text d) :
      IsNumber ('-' :: text) true d

def NoDigit (rest : List Char) : Prop :=
  ∀ c ∈ rest.head?, c.isDigit = false

/-- A text with which no number goes on. -/
def Stops (rest : List Char) : Prop :=
  ∀ c ∈ rest.head?, c.isDigit = false ∧ c ≠ '.' ∧ c ≠ 'e' ∧ c ≠ 'E'

variable {text whole fraction part power rest : List Char} {exponent : Int} {d : Decimal}

theorem Stops.noDigit (stops : Stops rest) : NoDigit rest :=
  fun c first => (stops c first).1

theorem stops_nil : Stops [] := by
  simp [Stops]

theorem Digits.exists_cons (digits : Digits text) :
    ∃ c more, text = c :: more ∧ c.isDigit = true := by
  obtain ⟨notEmpty, each⟩ := digits
  cases text with
  | nil => exact absurd rfl notEmpty
  | cons c more => exact ⟨c, more, rfl, each c List.mem_cons_self⟩

theorem isMagnitude_of_isWhole (isWhole : IsWhole whole) :
    IsMagnitude whole ⟨Nat.ofDigitChars 10 whole 0, 0⟩ := by
  have magnitude := IsMagnitude.mk isWhole .none .none
  simpa using magnitude

theorem IsMagnitude.exists_cons (magnitude : IsMagnitude text d) :
    ∃ c more, text = c :: more ∧ c.isDigit = true := by
  cases magnitude with
  | mk isWhole =>
    obtain ⟨c, more, rfl, isDigit⟩ := isWhole.1.exists_cons
    exact ⟨c, _, List.cons_append, isDigit⟩

theorem digits_append_eq (digits : Digits text) (noDigit : NoDigit rest) :
    Lexeme.digits (text ++ rest) = (text, rest) := by
  rw [Lexeme.digits, List.takeWhile_append_stopped digits.2 noDigit,
    List.dropWhile_append_stopped digits.2 noDigit]

theorem startsWithDigit_append (digits : Digits text) (rest : List Char) :
    startsWithDigit (text ++ rest) = true := by
  obtain ⟨c, more, rfl, isDigit⟩ := digits.exists_cons
  simp [startsWithDigit, isDigit]

theorem fraction_append_eq (isFraction : IsFraction fraction part) (noDigit : NoDigit rest)
    (noPoint : rest.head? ≠ some '.') : Lexeme.fraction (fraction ++ rest) = (fraction, rest) := by
  cases isFraction with
  | none =>
    rw [List.nil_append]
    unfold Lexeme.fraction
    split
    · exact absurd rfl noPoint
    · rfl
  | some digits =>
    rw [List.cons_append, Lexeme.fraction, startsWithDigit_append digits, if_pos rfl,
      digits_append_eq digits noDigit]

theorem sign_append_eq {sign ds : List Char} {negative : Bool} (isSign : IsSign sign negative)
    (digits : Digits ds) (rest : List Char) :
    Lexeme.sign (sign ++ (ds ++ rest)) = (sign, ds ++ rest) := by
  obtain ⟨c, more, rfl, isDigit⟩ := digits.exists_cons
  cases isSign with
  | none =>
    rw [List.nil_append, List.cons_append]
    unfold Lexeme.sign
    split
    · rename_i same
      cases same
      exact absurd isDigit (by decide)
    · rename_i same
      cases same
      exact absurd isDigit (by decide)
    · rfl
  | plus => rfl
  | minus => rfl

theorem exponent_append_eq (isExponent : IsExponent power exponent) (stops : Stops rest) :
    Lexeme.exponent (power ++ rest) = (power, rest) := by
  cases isExponent with
  | none =>
    cases rest with
    | nil => rfl
    | cons c more =>
      obtain ⟨_, _, small, capital⟩ := stops c rfl
      simp [Lexeme.exponent, small, capital]
  | some letter isSign digits =>
    rw [List.cons_append, List.append_assoc, Lexeme.exponent, sign_append_eq isSign digits,
      digits_append_eq digits stops.noDigit, if_pos ⟨letter, startsWithDigit_append digits _⟩]

theorem noDigit_power (isExponent : IsExponent power exponent) (noDigit : NoDigit rest) :
    NoDigit (power ++ rest) := by
  cases isExponent with
  | none => exact noDigit
  | some letter =>
    intro c first
    cases first
    rcases letter with rfl | rfl <;> decide

theorem noDigit_fraction (isFraction : IsFraction fraction part) (noDigit : NoDigit rest) :
    NoDigit (fraction ++ rest) := by
  cases isFraction with
  | none => exact noDigit
  | some =>
    intro c first
    cases first
    decide

theorem head_power_ne_point (isExponent : IsExponent power exponent) (stops : Stops rest) :
    (power ++ rest).head? ≠ some '.' := by
  cases isExponent with
  | none => exact fun first => (stops '.' first).2.1 rfl
  | some letter =>
    intro first
    cases first
    rcases letter with same | same <;> cases same

theorem digitBehindZero_eq (isWhole : IsWhole whole) (noDigit : NoDigit rest) :
    digitBehindZero? (whole ++ rest) = none := by
  obtain ⟨digits, alone⟩ := isWhole
  obtain ⟨c, more, rfl, isDigit⟩ := digits.exists_cons
  by_cases zero : c = '0'
  · subst zero
    have single := alone rfl
    rw [single]
    cases rest with
    | nil => rfl
    | cons d behind => simp [digitBehindZero?, noDigit d rfl]
  · unfold digitBehindZero?
    split
    · rename_i same
      exact absurd (List.cons.inj same).1 zero
    · rfl

theorem minus_of_digits (digits : Digits text) (rest : List Char) :
    minus (text ++ rest) = ([], text ++ rest) := by
  obtain ⟨c, more, rfl, isDigit⟩ := digits.exists_cons
  unfold minus
  split
  · rename_i same
    cases same
    exact absurd isDigit (by decide)
  · rfl

theorem minus_of_magnitude (magnitude : IsMagnitude text d) (rest : List Char) :
    minus (text ++ rest) = ([], text ++ rest) := by
  cases magnitude with
  | mk isWhole =>
    rw [List.append_assoc]
    exact minus_of_digits isWhole.1 _

theorem number_of_magnitude (sign : List Char) (magnitude : IsMagnitude text d)
    (stops : Stops rest) (behindSign : minus (sign ++ (text ++ rest)) = (sign, text ++ rest)) :
    number (sign ++ (text ++ rest)) = .ok ⟨.number, sign ++ text, rest⟩ := by
  cases magnitude with
  | mk isWhole isFraction isExponent =>
    have powerFirst := noDigit_power isExponent stops.noDigit
    have fractionFirst := noDigit_fraction isFraction powerFirst
    have noZero := digitBehindZero_eq isWhole fractionFirst
    have behindWhole := digits_append_eq isWhole.1 fractionFirst
    have behindFraction := fraction_append_eq isFraction powerFirst
      (head_power_ne_point isExponent stops)
    have behindPower := exponent_append_eq isExponent stops
    simp only [List.append_assoc] at behindSign ⊢
    simp only [number, behindSign, noZero, behindWhole, behindFraction, behindPower,
      List.append_assoc]

theorem number_append_eq {negative : Bool} (isNumber : IsNumber text negative d)
    (stops : Stops rest) : number (text ++ rest) = .ok ⟨.number, text, rest⟩ := by
  cases isNumber with
  | positive magnitude =>
    exact number_of_magnitude [] magnitude stops (minus_of_magnitude magnitude rest)
  | negative magnitude => exact number_of_magnitude ['-'] magnitude stops rfl

theorem splitSign_of_digits (digits : Digits text) (rest : List Char) :
    Decimal.splitSign (text ++ rest) = (false, text ++ rest) := by
  obtain ⟨c, more, rfl, isDigit⟩ := digits.exists_cons
  unfold Decimal.splitSign
  split
  · rename_i same
    cases same
    exact absurd isDigit (by decide)
  · rename_i same
    cases same
    exact absurd isDigit (by decide)
  · rfl

theorem splitSign_append_eq {sign ds : List Char} {negative : Bool} (isSign : IsSign sign negative)
    (digits : Digits ds) : Decimal.splitSign (sign ++ ds) = (negative, ds) := by
  cases isSign with
  | none => simpa using splitSign_of_digits digits []
  | plus => rfl
  | minus => rfl

theorem readDigits_eq (digits : Digits text) :
    Text.readDigits? text = some (Nat.ofDigitChars 10 text 0) := by
  rw [Text.readDigits?, if_pos ⟨digits.1, List.all_eq_true.2 digits.2⟩]

theorem readDigits_eq_some_iff {n : Nat} :
    Text.readDigits? text = some n ↔ Digits text ∧ Nat.ofDigitChars 10 text 0 = n := by
  constructor
  · intro read
    unfold Text.readDigits? at read
    split at read
    · rename_i both
      exact ⟨⟨both.1, List.all_eq_true.1 both.2⟩, Option.some.inj read⟩
    · cases read
  · rintro ⟨digits, rfl⟩
    exact readDigits_eq digits

/-- Decimal digits, zeros in front allowed, perhaps behind a plus sign. -/
inductive IsIndex : List Char → Nat → Prop
  | unsigned {ds : List Char} (digits : Digits ds) : IsIndex ds (Nat.ofDigitChars 10 ds 0)
  | signed {ds : List Char} (digits : Digits ds) : IsIndex ('+' :: ds) (Nat.ofDigitChars 10 ds 0)

theorem readNatural_eq_some_iff {i : Nat} :
    Text.readNatural? text = some i ↔ IsIndex text i ∧ i < UInt64.size := by
  unfold Text.readNatural?
  rw [Option.filter_eq_some_iff, decide_eq_true_eq]
  refine and_congr_left fun _ => ?_
  split
  · rename_i rest
    rw [readDigits_eq_some_iff]
    constructor
    · rintro ⟨digits, rfl⟩
      exact .signed digits
    · intro isIndex
      cases isIndex with
      | unsigned digits => exact absurd (digits.2 '+' List.mem_cons_self) (by decide)
      | signed digits => exact ⟨digits, rfl⟩
  · rename_i unsigned
    rw [readDigits_eq_some_iff]
    constructor
    · rintro ⟨digits, rfl⟩
      exact .unsigned digits
    · intro isIndex
      cases isIndex with
      | unsigned digits => exact ⟨digits, rfl⟩
      | signed => exact absurd rfl (unsigned _)

theorem readExponent_eq (isExponent : IsExponent power exponent) :
    Decimal.readExponent? power = some exponent := by
  cases isExponent with
  | none => rfl
  | some letter isSign digits =>
    simp only [Decimal.readExponent?, if_pos letter, splitSign_append_eq isSign digits,
      readDigits_eq digits]
    rfl

theorem readUnsigned_eq (magnitude : IsMagnitude text d) : Decimal.readUnsigned? text = some d := by
  cases magnitude with
  | @mk whole fraction part power exponent isWhole isFraction isExponent =>
    have powerFirst := noDigit_power isExponent stops_nil.noDigit
    have fractionFirst := noDigit_fraction isFraction powerFirst
    have notEmpty : whole ++ part ≠ [] := by simp [isWhole.1.1]
    rw [List.append_nil] at powerFirst fractionFirst
    simp only [Decimal.readUnsigned?, List.takeWhile_append_stopped isWhole.1.2 fractionFirst,
      List.dropWhile_append_stopped isWhole.1.2 fractionFirst]
    cases isFraction with
    | none =>
      have noPoint := head_power_ne_point isExponent stops_nil
      rw [List.append_nil] at noPoint
      simp only [List.nil_append]
      split
      · exact absurd rfl noPoint
      · rw [if_neg notEmpty, readExponent_eq isExponent]
        rfl
    | some digits =>
      simp only [List.cons_append, List.takeWhile_append_stopped digits.2 powerFirst,
        List.dropWhile_append_stopped digits.2 powerFirst]
      rw [if_neg notEmpty, readExponent_eq isExponent]
      rfl

theorem readMagnitude_eq (magnitude : IsMagnitude text d) :
    Decimal.readMagnitude? text = some d.toFloat := by
  rw [Decimal.readMagnitude?, readUnsigned_eq magnitude]

theorem splitSign_of_magnitude (magnitude : IsMagnitude text d) :
    Decimal.splitSign text = (false, text) := by
  cases magnitude with
  | mk isWhole => exact splitSign_of_digits isWhole.1 _

theorem readFloat_eq {negative : Bool} (isNumber : IsNumber text negative d) :
    Decimal.readFloat? text = some (if negative then -d.toFloat else d.toFloat) := by
  cases isNumber with
  | positive magnitude =>
    simp [Decimal.readFloat?, splitSign_of_magnitude magnitude, readMagnitude_eq magnitude]
  | negative magnitude => simp [Decimal.readFloat?, Decimal.splitSign, readMagnitude_eq magnitude]

end Bindlang.NumberText
