import Bindlang.Proofs.Parser.Positions

namespace Bindlang.Token

open Lexeme NumberText

variable {afterDot : Bool} {p q : Position} {text skipped more : List Char} {d : Char}

theorem spelled_zero {s : List Char} (isSign : s = [] ∧ afterDot = false ∨ s = ['-']) :
    Spelled afterDot .number (s ++ ['0']) := by
  have zero : IsMagnitude ['0'] ⟨0, 0⟩ := isMagnitude_toDigits 0
  rcases isSign with ⟨rfl, rfl⟩ | rfl
  · exact .number (.positive zero) nofun
  · exact .number (.negative zero) fun _ => rfl

theorem exists_scanFrom_skipped (unexpected : Unexpected afterDot skipped d more) (p : Position) :
    ∃ ts, scanFrom afterDot p skipped = .ok ts := by
  cases unexpected with
  | here => exact ⟨[], scanFrom_nil afterDot p⟩
  | @behindZero s _ _ isSign =>
    have read := scanFrom_token (p := p) (spelled_zero isSign) behindValue_nil
    rw [scanFrom_nil, List.append_nil] at read
    exact ⟨_, read⟩

theorem exists_unexpected
    (failed : scanFrom afterDot p text = .error (.unexpectedCharacter d q)) :
    ∃ before more, text = before ++ d :: more ∧ q = p.after before ∧
      (∃ ts, scanFrom afterDot p before = .ok ts) ∧ (d ≠ '.' ∧ ¬(d = 'e' ∨ d = 'E')) ∧
      ∀ more', NoFurther (d :: more) (d :: more') →
        scanFrom afterDot p (before ++ d :: more') = .error (.unexpectedCharacter d q) := by
  obtain ⟨before, c, rest, fault, ts, rfl, same, reads, visible, faulty⟩ :=
    exists_fault_of_scanFrom failed
  cases fault with
  | unterminatedString => cases same
  | unexpectedCharacter skipped found =>
    cases same
    obtain ⟨more, whole, unexpected⟩ := unexpected_of_first faulty
    refine ⟨before ++ skipped, more, by rw [whole, List.append_assoc], ?_, ?_, unexpected.outside, ?_⟩
    · rw [Position.after_append]
    · have further := (noFurther_nil (d :: more)).append skipped
      rw [← whole, List.append_nil] at further
      obtain ⟨us, scanned⟩ := exists_scanFrom_skipped unexpected (p.after before)
      rw [reads skipped further, scanned]
      exact ⟨_, rfl⟩
    · intro more' further
      obtain ⟨rest', again⟩ : ∃ rest', c :: rest' = skipped ++ d :: more' := by
        cases skipped with
        | nil =>
          cases whole
          exact ⟨more', rfl⟩
        | cons c' skipped =>
          cases whole
          exact ⟨skipped ++ d :: more', rfl⟩
      have failedAgain := first_of_unexpected (unexpected.noFurther further) again
      have further := further.append skipped
      rw [← whole, ← again] at further
      rw [List.append_assoc, ← again, reads.fails further visible failedAgain]
      rfl

theorem exists_unterminated (failed : scanFrom afterDot p text = .error (.unterminatedString q)) :
    ∃ before rest, text = before ++ '"' :: rest ∧ q = p.after before ∧ '"' ∉ rest ∧
      (∃ ts, scanFrom afterDot p before = .ok ts) ∧
      (∀ more, '"' ∉ more →
        scanFrom afterDot p (text ++ more) = .error (.unterminatedString q)) ∧
      ∃ ts, scanFrom afterDot p (text ++ ['"']) = .ok ts := by
  obtain ⟨before, c, rest, fault, ts, rfl, same, reads, visible, faulty⟩ :=
    exists_fault_of_scanFrom failed
  cases fault with
  | unexpectedCharacter skipped found => cases same
  | unterminatedString =>
    cases same
    obtain ⟨rfl, noQuote⟩ := first_eq_unterminated_iff.1 faulty
    have quote (more : List Char) : NoFurther ('"' :: rest) ('"' :: more) :=
      noFurther_of_head nofun nofun nofun
    refine ⟨before, rest, rfl, rfl, noQuote, ⟨ts, reads.scanned⟩, ?_, ?_⟩
    · intro more noQuoteMore
      have open' : '"' ∉ rest ++ more := by
        rw [List.mem_append]
        exact not_or.2 ⟨noQuote, noQuoteMore⟩
      rw [List.append_assoc]
      exact reads.fails (quote (rest ++ more)) visible (first_eq_unterminated_iff.2 ⟨rfl, open'⟩)
    · have isString : Spelled (endsInDot afterDot ts) .string rest := .string noQuote
      have closed : Ends .string [] := trivial
      have read := scanFrom_token (p := p.after before) isString closed
      rw [scanFrom_nil, List.append_nil] at read
      rw [List.append_assoc, List.cons_append, reads _ (quote (rest ++ ['"']))]
      exact ⟨_, congrArg (Except.map (ts ++ ·)) read⟩

theorem take_offset {front : List Char} (whole : text = front ++ more) :
    text.take (Position.start.after front).offset = front := by
  rw [Position.start_after, whole, List.take_left]

/-- The lexer's errors are exact: all before their character is read, and it is to blame. -/
theorem scan_error_exact (text : String) :
    (∀ c p, scan text = .error (.unexpectedCharacter c p) →
      let before := text.toList.take p.offset
      (∃ ts, scan (.ofList before) = .ok ts) ∧ text.toList[p.offset]? = some c ∧
        ∀ more, (c = '+' ∨ c = '-' → startsWithDigit more = false) →
          scan (.ofList (before ++ c :: more)) = .error (.unexpectedCharacter c p)) ∧
    (∀ p, scan text = .error (.unterminatedString p) →
      let before := text.toList.take p.offset
      (∃ ts, scan (.ofList before) = .ok ts) ∧ text.toList[p.offset]? = some '"' ∧
        '"' ∉ text.toList.drop (p.offset + 1) ∧
        (∀ more, '"' ∉ more →
          scan (.ofList (text.toList ++ more)) = .error (.unterminatedString p)) ∧
        ∃ ts, scan (.ofList (text.toList ++ ['"'])) = .ok ts) := by
  constructor
  · intro c p failed before
    have placed := (placedIn_of_scan failed).character
    obtain ⟨front, rest, whole, rfl, scanned, ⟨noPoint, noLetter⟩, fails⟩ := exists_unexpected failed
    have same : before = front := take_offset whole
    simp only [scan, String.toList_ofList, same]
    refine ⟨scanned, placed, fun more noDigit => fails more ?_⟩
    exact noFurther_of_head (fun isSign _ => noDigit isSign) (fun point => absurd point noPoint)
      fun letter => absurd letter noLetter
  · intro p failed before
    have placed := (placedIn_of_scan failed).character
    obtain ⟨front, rest, whole, rfl, noQuote, scanned, fails, closes⟩ := exists_unterminated failed
    have same : before = front := take_offset whole
    have behind : text.toList.drop ((Position.start.after front).offset + 1) = rest := by
      rw [Position.start_after, whole, ← List.drop_drop, List.drop_left]
      rfl
    simp only [scan, String.toList_ofList, same, behind]
    exact ⟨scanned, placed, noQuote, fails, closes⟩

theorem faults_of_exponent_and_string :
    scan "x.5 1e+ y" = .error (.unexpectedCharacter '+' ⟨1, 7, 6⟩) ∧
      (∃ ts, scan "x.5 1e" = .ok ts) ∧
      scan "x.5 1e+x5" = .error (.unexpectedCharacter '+' ⟨1, 7, 6⟩) ∧
      scan "a: \"b\n" = .error (.unterminatedString ⟨1, 4, 3⟩) ∧
      (∃ ts, scan "a: " = .ok ts) ∧
      scan "a: \"b\n, c: 1" = .error (.unterminatedString ⟨1, 4, 3⟩) ∧
      ∃ ts, scan "a: \"b\n\"" = .ok ts := by
  have signed : scan "x.5 1e+ y" = .error (.unexpectedCharacter '+' ⟨1, 7, 6⟩) := by decide +kernel
  have opened : scan "a: \"b\n" = .error (.unterminatedString ⟨1, 4, 3⟩) := by decide +kernel
  obtain ⟨readBefore, _, fails⟩ := (scan_error_exact "x.5 1e+ y").1 _ _ signed
  obtain ⟨readBehind, _, _, open', closes⟩ := (scan_error_exact "a: \"b\n").2 _ opened
  exact ⟨signed, readBefore, fails "x5".toList fun _ => rfl, opened, readBehind,
    open' ", c: 1".toList (by decide), closes⟩

example : scan "x.5 1e+5" =
    .ok [⟨.identifier, "x", ⟨1, 1, 0⟩⟩, ⟨.dot, ".", ⟨1, 2, 1⟩⟩, ⟨.identifier, "5", ⟨1, 3, 2⟩⟩,
      ⟨.number, "1e+5", ⟨1, 5, 4⟩⟩] := by
  decide +kernel

end Bindlang.Token
