import Bindlang.Proofs.Printer.RoundTrip

namespace Bindlang.Token

open Lexeme NumberText Text

/-- What a token of a kind may look like, directly behind a dot or not. -/
def IsLexeme (afterDot : Bool) (kind : TokenKind) (lexeme : String) : Prop :=
  match kind with
  | .identifier => if afterDot then IsMember lexeme else IsIdentifier lexeme
  | .string => IsQuotable lexeme
  | .number => (∃ negative d, IsNumber lexeme.toList negative d) ∧
      (afterDot = true → lexeme.toList.head? = some '-')
  | .boolean => afterDot = false ∧ (lexeme = "true" ∨ lexeme = "false")
  | .null => afterDot = false ∧ lexeme = "null"
  | .undefined => afterDot = false ∧ lexeme = "undefined"
  | .comma => lexeme = ","
  | .colon => lexeme = ":"
  | .leftBracket => lexeme = "["
  | .rightBracket => lexeme = "]"
  | .leftBrace => lexeme = "\x7b"
  | .rightBrace => lexeme = "\x7d"
  | .leftParen => lexeme = "("
  | .rightParen => lexeme = ")"
  | .dot => lexeme = "."

/-- Tokens that can follow each other, the first directly behind a dot or not. -/
def AreLexemes : (afterDot : Bool) → List (TokenKind × String) → Prop
  | _, [] => True
  | afterDot, (kind, lexeme) :: others =>
    IsLexeme afterDot kind lexeme ∧ AreLexemes (kind == .dot) others

structure Spaced where
  kind : TokenKind
  lexeme : String
  gap : List Char

namespace Spaced

def parts (w : Spaced) : TokenKind × String :=
  (w.kind, w.lexeme)

def chars (w : Spaced) : List Char :=
  sourceOf w.kind w.lexeme.toList ++ w.gap

end Spaced

def kindAndLexeme (t : Token) : TokenKind × String :=
  (t.kind, t.lexeme)

variable {afterDot : Bool} {kind : TokenKind} {lexeme : String} {p : Position}

theorem spelled_number {chars : List Char} {negative : Bool} {d : Decimal}
    (isNumber : IsNumber chars negative d)
    (signed : afterDot = true → chars.head? = some '-') : Spelled afterDot .number chars := by
  refine .number isNumber fun behindDot => ?_
  have first := signed behindDot
  cases isNumber with
  | negative => rfl
  | positive magnitude =>
    obtain ⟨c, more, rfl, digit⟩ := magnitude.exists_cons
    cases first
    cases digit

theorem spelled_of_isLexeme (isLexeme : IsLexeme afterDot kind lexeme) :
    Spelled afterDot kind lexeme.toList := by
  cases kind with
  | identifier =>
    cases afterDot with
    | true => exact spelled_of_isMember isLexeme
    | false => exact spelled_of_isIdentifier isLexeme
  | string => exact .string isLexeme
  | number =>
    obtain ⟨⟨negative, d, isNumber⟩, signed⟩ := isLexeme
    exact spelled_number isNumber signed
  | boolean =>
    obtain ⟨rfl, rfl | rfl⟩ := isLexeme
    · exact spelled_keyword "true" (by decide)
    · exact spelled_keyword "false" (by decide)
  | null =>
    obtain ⟨rfl, rfl⟩ := isLexeme
    exact spelled_keyword "null" (by decide)
  | undefined =>
    obtain ⟨rfl, rfl⟩ := isLexeme
    exact spelled_keyword "undefined" (by decide)
  | comma | colon | leftBracket | rightBracket | leftBrace | rightBrace | leftParen | rightParen
  | dot =>
    cases isLexeme
    exact .mark rfl

theorem scanFrom_spaced {written : List Spaced}
    (valid : AreLexemes afterDot (written.map Spaced.parts)) (blank : ∀ w ∈ written, Blank w.gap)
    (apart : ∀ w ∈ written.dropLast, w.gap ≠ []) :
    ∃ tokens, scanFrom afterDot p (written.flatMap Spaced.chars) = .ok tokens ∧
      tokens.map kindAndLexeme = written.map Spaced.parts := by
  induction written generalizing afterDot p with
  | nil => exact ⟨[], scanFrom_nil afterDot p, rfl⟩
  | cons w others ih =>
    obtain ⟨isLexeme, valid⟩ := valid
    obtain ⟨isBlank, blank⟩ := List.forall_mem_cons.1 blank
    have behind : BehindValue (w.gap ++ others.flatMap Spaced.chars) := by
      refine behindValue_blank isBlank fun none => ?_
      -- Only behind the last token there may be no white space.
      cases others with
      | nil => exact behindValue_nil
      | cons => exact absurd none (apart w List.mem_cons_self)
    have othersApart : ∀ other ∈ others.dropLast, other.gap ≠ [] := by
      intro other member
      cases others with
      | nil => cases member
      | cons => exact apart other (List.mem_cons_of_mem w member)
    obtain ⟨tokens, scanned, same⟩ := ih (p := (p.after (sourceOf w.kind w.lexeme.toList)).after w.gap)
      valid blank othersApart
    refine ⟨⟨w.kind, w.lexeme, p⟩ :: tokens, ?_, by simp [same, kindAndLexeme, Spaced.parts]⟩
    rw [List.flatMap_cons, Spaced.chars, List.append_assoc,
      scanFrom_token (spelled_of_isLexeme isLexeme) (behind.ends w.kind), scanFrom_blank isBlank,
      scanned, String.ofList_toList]
    rfl

/-- Tokens that can follow each other are read back, with any white space between them. -/
theorem scan_of_spaced {lead : List Char} {written : List Spaced}
    (valid : AreLexemes false (written.map Spaced.parts)) (leadBlank : Blank lead)
    (blank : ∀ w ∈ written, Blank w.gap) (apart : ∀ w ∈ written.dropLast, w.gap ≠ []) :
    ∃ tokens, scan (.ofList (lead ++ written.flatMap Spaced.chars)) = .ok tokens ∧
      tokens.map kindAndLexeme = written.map Spaced.parts := by
  obtain ⟨tokens, scanned, same⟩ :=
    scanFrom_spaced (p := Position.start.after lead) valid blank apart
  refine ⟨tokens, ?_, same⟩
  rw [scan, String.toList_ofList, scanFrom_blank leadBlank, scanned]

def spacedPath : List Spaced :=
  [⟨.identifier, "e", ['\t']⟩, ⟨.dot, ".", ['\n', ' ']⟩, ⟨.identifier, "1", ['\u3000']⟩,
    ⟨.dot, ".", [' ']⟩, ⟨.identifier, "true", ['\r']⟩, ⟨.dot, ".", [' ']⟩,
    ⟨.number, "-0.5e+3", [' ']⟩, ⟨.string, "[, ", [' ']⟩, ⟨.boolean, "true", []⟩]

theorem areLexemes_spacedPath : AreLexemes false (spacedPath.map Spaced.parts) := by
  have root : IsIdentifier "e" := ⟨by decide +kernel, by decide +kernel, by decide⟩
  have one : IsMember "1" := ⟨by decide, by decide +kernel⟩
  have keyword : IsMember "true" := ⟨by decide, by decide +kernel⟩
  have number : IsNumber "-0.5e+3".toList true ⟨5, 2⟩ :=
    .negative (.mk (isWhole_toDigits 0) (.some (digits_toDigits 5))
      (.some (.inl rfl) .plus (digits_toDigits 3)))
  have marks : IsQuotable "[, " := by
    unfold IsQuotable
    decide
  exact ⟨root, rfl, one, rfl, keyword, rfl, ⟨⟨true, _, number⟩, fun _ => rfl⟩, marks,
    ⟨rfl, .inl rfl⟩, trivial⟩

theorem spacedPath_is_read_back :
    AreLexemes false (spacedPath.map Spaced.parts) ∧ Blank ['\n'] ∧
      (∀ w ∈ spacedPath, Blank w.gap) ∧ (∀ w ∈ spacedPath.dropLast, w.gap ≠ []) ∧
      ∃ tokens, scan (.ofList (['\n'] ++ spacedPath.flatMap Spaced.chars)) = .ok tokens ∧
        tokens.map kindAndLexeme = spacedPath.map Spaced.parts :=
  have lead : Blank ['\n'] := List.all_eq_true.1 (by decide +kernel)
  have allBlank : spacedPath.all (fun w => w.gap.all isWhitespace) = true := by decide +kernel
  have blank : ∀ w ∈ spacedPath, Blank w.gap :=
    fun w member => List.all_eq_true.1 (List.all_eq_true.1 allBlank w member)
  have apart : ∀ w ∈ spacedPath.dropLast, w.gap ≠ [] := by decide
  ⟨areLexemes_spacedPath, lead, blank, apart,
    scan_of_spaced areLexemes_spacedPath lead blank apart⟩

end Bindlang.Token
