import Bindlang.BindingSet
import Bindlang.Proofs.Json.ReadAsExpression
import Bindlang.Proofs.Parser.ErrorCauses
import Bindlang.Proofs.Token.Soundness

namespace Bindlang

namespace NumberText

open Text JsonText

variable {text : List Char} {n : Int} {negative : Bool} {d : Decimal}

def integerValue : List Char → Int
  | '-' :: digits => -Nat.ofDigitChars 10 digits 0
  | digits => Nat.ofDigitChars 10 digits 0

/-- No point and no exponent, and the value of a signed integer of 64 bits. -/
structure FitsInt64 (text : List Char) : Prop where
  whole : ∀ c ∈ text, c ≠ '.' ∧ c ≠ 'e' ∧ c ≠ 'E'
  least : -9223372036854775808 ≤ integerValue text
  greatest : integerValue text ≤ 9223372036854775807

theorem integerValue_of_digits (digits : Digits text) :
    integerValue text = Nat.ofDigitChars 10 text 0 := by
  obtain ⟨c, more, rfl, isDigit⟩ := digits.exists_cons
  unfold integerValue
  split
  · rename_i same
    cases same
    exact absurd isDigit (by decide)
  · rfl

theorem integerValue_of_isInteger (isInteger : IsInteger text n) : integerValue text = n := by
  cases isInteger with
  | positive isWhole => exact integerValue_of_digits isWhole.1
  | negative isWhole => rfl

theorem isFloatText_eq_false_iff :
    isFloatText text = false ↔ ∀ c ∈ text, c ≠ '.' ∧ c ≠ 'e' ∧ c ≠ 'E' := by
  simp [isFloatText, and_assoc]

theorem ofNumber_of_fitsInt64 (isNumber : IsNumber text negative d) (fits : FitsInt64 text) :
    ∃ n : Int64, n.toInt = integerValue text ∧
      Literal.ofNumber? (.ofList text) = some (.integer n) := by
  obtain ⟨n, isInteger⟩ := exists_isInteger isNumber (isFloatText_eq_false_iff.2 fits.whole)
  have value := integerValue_of_isInteger isInteger
  have within : Fits n := ⟨value ▸ fits.least, value ▸ fits.greatest⟩
  refine ⟨.ofInt n, ?_, ofNumber_of_isInteger isInteger within⟩
  rw [value]
  exact Int64.toInt_ofInt_of_le within.1 (Int.lt_add_one_of_le within.2)

theorem ofNumber_of_not_fitsInt64 (isNumber : IsNumber text negative d) (unfit : ¬FitsInt64 text) :
    ∃ x, Decimal.readFloat? text = some x ∧ Literal.ofNumber? (.ofList text) = some (.float x) := by
  have reads := readFloat_eq isNumber
  refine ⟨_, reads, ofNumber_of_unfit isNumber (fun n isInteger within => unfit ?_) reads⟩
  have value := integerValue_of_isInteger isInteger
  have whole := isFloatText_eq_false_iff.1 (isFloatText_of_isInteger isInteger)
  exact ⟨whole, value ▸ within.1, value ▸ within.2⟩

theorem exists_literal_of_isNumber (isNumber : IsNumber text negative d) :
    ∃ l, Literal.ofNumber? (.ofList text) = some l := by
  by_cases fits : FitsInt64 text
  · obtain ⟨n, _, reads⟩ := ofNumber_of_fitsInt64 isNumber fits
    exact ⟨.integer n, reads⟩
  · obtain ⟨x, _, reads⟩ := ofNumber_of_not_fitsInt64 isNumber fits
    exact ⟨.float x, reads⟩

end NumberText

open NumberText

variable {rules : Rules} {tokens : List Token} {found : Token} {text : String}

theorem Parser.unreadable_of_parse
    (failed : parse rules tokens = .error (.unexpectedToken .number found)) :
    found ∈ tokens ∧ found.kind = .number ∧ Literal.ofNumber? found.lexeme = none := by
  unfold parse at failed
  split at failed
  · cases failed
  · rcases Except.bind_eq_error_iff.1 failed with failed | ⟨s, _, failed⟩
    · obtain ⟨pre, t, post, s, rfl, _, failed⟩ := exists_step_of_run failed
      cases refuses_of_step failed with
      | unexpected other => exact absurd rfl other
      | unreadable isNumber unread =>
        exact ⟨List.mem_append_right pre List.mem_cons_self, isNumber, unread⟩
    · cases refusesEnd_of_finish failed

theorem exists_tokens_of_grammatical {e : ParseError}
    (failed : readBindings rules text = .error (.grammatical e)) :
    ∃ tokens, Token.scan text = .ok tokens ∧ parse rules tokens = .error e := by
  rcases Except.bind_eq_error_iff.1 failed with unread | ⟨tokens, scanned, refused⟩
  · cases scanned : Token.scan text <;> rw [scanned] at unread <;> cases unread
  · refine ⟨tokens, Except.mapError_eq_ok_iff.1 scanned, ?_⟩
    cases parsed : parse rules tokens <;> rw [parsed] at refused <;> cases refused
    rfl

theorem readBindings_ne_unreadable (rules : Rules) (text : String) (found : Token) :
    readBindings rules text ≠ .error (.grammatical (.unexpectedToken .number found)) := by
  intro failed
  obtain ⟨tokens, scanned, refused⟩ := exists_tokens_of_grammatical failed
  obtain ⟨member, kind, unread⟩ := Parser.unreadable_of_parse refused
  obtain ⟨_, _, isNumber⟩ := Token.exists_isNumber_of_scanFrom scanned member kind
  obtain ⟨l, reads⟩ := exists_literal_of_isNumber isNumber
  rw [String.ofList_toList, unread] at reads
  cases reads

/-- A number is the integer that it is written as, if that fits 64 bits, or else a float. -/
theorem numbers_are_typed (text : String) :
    (∀ tokens, Token.scan text = .ok tokens → ∀ t ∈ tokens, t.kind = .number →
      (FitsInt64 t.lexeme.toList → ∃ n : Int64, n.toInt = integerValue t.lexeme.toList ∧
        Literal.ofNumber? t.lexeme = some (.integer n)) ∧
      (¬FitsInt64 t.lexeme.toList → ∃ x, Decimal.readFloat? t.lexeme.toList = some x ∧
        Literal.ofNumber? t.lexeme = some (.float x))) ∧
    (∀ rules found,
      readBindings rules text ≠ .error (.grammatical (.unexpectedToken .number found))) ∧
    ∀ (options : Options) (scope : Scope) (found : Token),
      options.bind text scope ≠ .error (.grammatical (.unexpectedToken .number found)) := by
  refine ⟨?_, fun rules => readBindings_ne_unreadable rules text, ?_⟩
  · intro tokens scanned t member kind
    obtain ⟨_, _, isNumber⟩ := Token.exists_isNumber_of_scanFrom scanned member kind
    have asInteger := ofNumber_of_fitsInt64 isNumber
    have asFloat := ofNumber_of_not_fitsInt64 isNumber
    rw [String.ofList_toList] at asInteger asFloat
    exact ⟨asInteger, asFloat⟩
  · intro options scope found failed
    exact readBindings_ne_unreadable options.rules text found (Except.map_eq_error_iff.1 failed)

theorem bounds_are_typed :
    let text := "a: -9223372036854775808, b: 9223372036854775808, c: -0"
    (∃ tokens, Token.scan text = .ok tokens) ∧
      Literal.ofNumber? "-9223372036854775808" = some (.integer Int64.minValue) ∧
      (∃ x, Decimal.readFloat? "9223372036854775808".toList = some x ∧
        Literal.ofNumber? "9223372036854775808" = some (.float x)) ∧
      Literal.ofNumber? "-0" = some (.integer 0) := by
  intro text
  have scanned : Token.scan text =
      .ok [⟨.identifier, "a", ⟨1, 1, 0⟩⟩, ⟨.colon, ":", ⟨1, 2, 1⟩⟩,
        ⟨.number, "-9223372036854775808", ⟨1, 4, 3⟩⟩, ⟨.comma, ",", ⟨1, 24, 23⟩⟩,
        ⟨.identifier, "b", ⟨1, 26, 25⟩⟩, ⟨.colon, ":", ⟨1, 27, 26⟩⟩,
        ⟨.number, "9223372036854775808", ⟨1, 29, 28⟩⟩, ⟨.comma, ",", ⟨1, 48, 47⟩⟩,
        ⟨.identifier, "c", ⟨1, 50, 49⟩⟩, ⟨.colon, ":", ⟨1, 51, 50⟩⟩,
        ⟨.number, "-0", ⟨1, 53, 52⟩⟩] := by decide +kernel
  have typed := (numbers_are_typed text).1 _ scanned
  obtain ⟨n, least, reads⟩ := (typed ⟨.number, "-9223372036854775808", ⟨1, 4, 3⟩⟩ (by simp) rfl).1
    ⟨isFloatText_eq_false_iff.1 rfl, by decide, by decide⟩
  obtain ⟨z, zero, readsZero⟩ := (typed ⟨.number, "-0", ⟨1, 53, 52⟩⟩ (by simp) rfl).1
    ⟨isFloatText_eq_false_iff.1 rfl, by decide, by decide⟩
  have tooBig : ¬FitsInt64 "9223372036854775808".toList := fun fits =>
    absurd fits.greatest (by decide)
  have float := (typed ⟨.number, "9223372036854775808", ⟨1, 29, 28⟩⟩ (by simp) rfl).2 tooBig
  obtain rfl : n = Int64.minValue := Int64.toInt_inj.1 (least.trans (by decide))
  obtain rfl : z = 0 := Int64.toInt_inj.1 (zero.trans (by decide))
  exact ⟨⟨_, scanned⟩, reads, float, readsZero⟩

end Bindlang
