import Bindlang.Text.Identifier
import Bindlang.Token

namespace Bindlang

structure Lexeme where
  kind : TokenKind
  chars : List Char
  rest : List Char
  deriving DecidableEq, Repr

namespace Lexeme

def sourceOf (kind : TokenKind) (chars : List Char) : List Char :=
  if kind = .string then '"' :: (chars ++ ['"']) else chars

def source (l : Lexeme) : List Char :=
  sourceOf l.kind l.chars

inductive Fault
  | unterminatedString
  /-- The character behind the skipped ones fits no token. -/
  | unexpectedCharacter (skipped : List Char) (found : Char)
  deriving DecidableEq, Repr

def minus : List Char → List Char × List Char
  | '-' :: rest => (['-'], rest)
  | text => ([], text)

def sign : List Char → List Char × List Char
  | '+' :: rest => (['+'], rest)
  | '-' :: rest => (['-'], rest)
  | text => ([], text)

def digits (text : List Char) : List Char × List Char :=
  (text.takeWhile Char.isDigit, text.dropWhile Char.isDigit)

def startsWithDigit (text : List Char) : Bool :=
  text.head?.any Char.isDigit

/-- A point belongs to a number only if a digit follows it. -/
def fraction : List Char → List Char × List Char
  | '.' :: rest =>
    if startsWithDigit rest then ('.' :: (digits rest).1, (digits rest).2) else ([], '.' :: rest)
  | text => ([], text)

/-- An exponent belongs to a number only if a digit follows its letter and optional sign. -/
def exponent : List Char → List Char × List Char
  | [] => ([], [])
  | e :: rest =>
    if (e = 'e' ∨ e = 'E') ∧ startsWithDigit (sign rest).2 then
      (e :: ((sign rest).1 ++ (digits (sign rest).2).1), (digits (sign rest).2).2)
    else ([], e :: rest)

def digitBehindZero? : List Char → Option Char
  | '0' :: d :: _ => if d.isDigit then some d else none
  | _ => none

def number (text : List Char) : Except Fault Lexeme :=
  match digitBehindZero? (minus text).2 with
  | some d => .error (.unexpectedCharacter ((minus text).1 ++ ['0']) d)
  | none =>
    let whole := digits (minus text).2
    let part := fraction whole.2
    let power := exponent part.2
    .ok ⟨.number, (minus text).1 ++ whole.1 ++ part.1 ++ power.1, power.2⟩

/-- A string runs to the next quote; there are no escapes. -/
def string (text : List Char) : Except Fault Lexeme :=
  match text.dropWhile (· != '"') with
  | [] => .error .unterminatedString
  | _ :: rest => .ok ⟨.string, text.takeWhile (· != '"'), rest⟩

def word (text : List Char) : List Char × List Char :=
  (text.takeWhile Text.isIdentifierChar, text.dropWhile Text.isIdentifierChar)

def startsNumber (c : Char) (rest : List Char) : Bool :=
  c.isDigit || (c == '-' && startsWithDigit rest)

/-- Behind a dot a name may begin with a digit or be spelled like a keyword. -/
def first (afterDot : Bool) (c : Char) (rest : List Char) : Except Fault Lexeme :=
  match TokenKind.ofPunctuation? c with
  | some kind => .ok ⟨kind, [c], rest⟩
  | none =>
    if c = '"' then string rest
    else if afterDot && Text.isIdentifierChar c then
      .ok ⟨.identifier, (word (c :: rest)).1, (word (c :: rest)).2⟩
    else if startsNumber c rest then number (c :: rest)
    else if Text.isIdentifierStart c then
      .ok ⟨.ofWord (word (c :: rest)).1, (word (c :: rest)).1, (word (c :: rest)).2⟩
    else .error (.unexpectedCharacter [] c)

inductive FirstCases (afterDot : Bool) (c : Char) (rest : List Char) : Prop
  | mark {kind : TokenKind} (isMark : TokenKind.ofPunctuation? c = some kind)
      (reads : first afterDot c rest = .ok ⟨kind, [c], rest⟩)
  | string (quote : c = '"') (reads : first afterDot c rest = string rest)
  | member (behindDot : afterDot = true) (inWord : Text.isIdentifierChar c = true)
      (reads : first afterDot c rest =
        .ok ⟨.identifier, (word (c :: rest)).1, (word (c :: rest)).2⟩)
  | number (notMember : (afterDot && Text.isIdentifierChar c) = false)
      (begins : startsNumber c rest = true) (reads : first afterDot c rest = number (c :: rest))
  | word (notBehindDot : afterDot = false) (begins : Text.isIdentifierStart c = true)
      (reads : first afterDot c rest =
        .ok ⟨.ofWord (word (c :: rest)).1, (word (c :: rest)).1, (word (c :: rest)).2⟩)
  | nothing (noMark : TokenKind.ofPunctuation? c = none) (notQuote : c ≠ '"')
      (notMember : (afterDot && Text.isIdentifierChar c) = false)
      (notNumber : startsNumber c rest = false) (notStart : Text.isIdentifierStart c = false)
      (reads : first afterDot c rest = .error (.unexpectedCharacter [] c))

theorem first_cases (afterDot : Bool) (c : Char) (rest : List Char) :
    FirstCases afterDot c rest := by
  cases mark : TokenKind.ofPunctuation? c with
  | some kind => exact .mark mark (by simp [first, mark])
  | none =>
    by_cases quote : c = '"'
    · subst quote
      exact .string rfl rfl
    · cases member : afterDot && Text.isIdentifierChar c with
      | true =>
        have both := Bool.and_eq_true_iff.1 member
        exact .member both.1 both.2 (by simp [first, mark, quote, member])
      | false =>
        cases begins : startsNumber c rest with
        | true => exact .number member begins (by simp [first, mark, quote, member, begins])
        | false =>
          cases start : Text.isIdentifierStart c with
          | true =>
            have notBehindDot : afterDot = false := by
              simpa [Text.isIdentifierChar_of_start start] using member
            exact .word notBehindDot start (by simp [first, mark, quote, member, begins, start])
          | false =>
            exact .nothing mark quote member begins start
              (by simp [first, mark, quote, member, begins, start])

theorem minus_append (text : List Char) : (minus text).1 ++ (minus text).2 = text := by
  unfold minus
  split <;> rfl

theorem sign_append (text : List Char) : (sign text).1 ++ (sign text).2 = text := by
  unfold sign
  split <;> rfl

theorem digits_append (text : List Char) : (digits text).1 ++ (digits text).2 = text :=
  List.takeWhile_append_dropWhile

theorem fraction_append (text : List Char) : (fraction text).1 ++ (fraction text).2 = text := by
  unfold fraction
  split
  · split
    · simp [digits_append]
    · rfl
  · rfl

theorem exponent_append (text : List Char) : (exponent text).1 ++ (exponent text).2 = text := by
  cases text with
  | nil => rfl
  | cons e rest =>
    simp only [exponent]
    split
    · simp [digits_append, sign_append]
    · rfl

theorem word_append (text : List Char) : (word text).1 ++ (word text).2 = text :=
  List.takeWhile_append_dropWhile

theorem number_source {text : List Char} {l : Lexeme} (read : number text = .ok l) :
    l.source ++ l.rest = text := by
  unfold number at read
  split at read
  · cases read
  · cases read
    simp [source, sourceOf, List.append_assoc, exponent_append, fraction_append, digits_append,
      minus_append]

theorem string_source {text : List Char} {l : Lexeme} (read : string text = .ok l) :
    l.source ++ l.rest = '"' :: text := by
  unfold string at read
  split at read
  · cases read
  · rename_i quote rest found
    cases read
    have isQuote : quote = '"' := by
      have stopped := List.head?_dropWhile_not (· != '"') text
      simpa [found] using stopped
    have whole := List.takeWhile_append_dropWhile (p := (· != '"')) (l := text)
    rw [found, isQuote] at whole
    simpa [source, sourceOf] using whole

theorem isWord_ofWord (word : List Char) : (TokenKind.ofWord word).isWord = true := by
  unfold TokenKind.ofWord
  split
  · rfl
  · split
    · rfl
    · split <;> rfl

theorem ofWord_ne {kind : TokenKind} (noWord : kind.isWord = false) (word : List Char) :
    TokenKind.ofWord word ≠ kind := by
  rintro rfl
  exact Bool.noConfusion (noWord.symm.trans (isWord_ofWord word))

theorem kind_of_punctuation {c : Char} {kind : TokenKind}
    (mark : TokenKind.ofPunctuation? c = some kind) :
    kind.isWord = false ∧ kind ≠ .number ∧ kind ≠ .string := by
  unfold TokenKind.ofPunctuation? at mark
  split at mark <;> cases mark <;> decide

theorem first_source {afterDot : Bool} {c : Char} {rest : List Char} {l : Lexeme}
    (read : first afterDot c rest = .ok l) : l.source ++ l.rest = c :: rest := by
  cases first_cases afterDot c rest with
  | mark isMark reads =>
    cases reads.symm.trans read
    simp [source, sourceOf, (kind_of_punctuation isMark).2.2]
  | string quote reads =>
    rw [quote]
    exact string_source (reads.symm.trans read)
  | member _ _ reads =>
    cases reads.symm.trans read
    simp [source, sourceOf, word_append]
  | number _ _ reads => exact number_source (reads.symm.trans read)
  | word _ _ reads =>
    cases reads.symm.trans read
    simp [source, sourceOf, @ofWord_ne .string rfl, word_append]
  | nothing _ _ _ _ _ reads => cases reads.symm.trans read

theorem word_ne_nil {c : Char} {rest : List Char} (member : Text.isIdentifierChar c = true) :
    (word (c :: rest)).1 ≠ [] := by
  simp [word, member]

theorem string_ne_nil {text : List Char} {l : Lexeme} (read : string text = .ok l) :
    l.source ≠ [] := by
  unfold string at read
  split at read
  · cases read
  · cases read
    simp [source, sourceOf]

theorem number_ne_nil {c : Char} {rest : List Char} {l : Lexeme}
    (begins : startsNumber c rest = true) (read : number (c :: rest) = .ok l) : l.source ≠ [] := by
  unfold number at read
  split at read
  · cases read
  · cases read
    simp only [startsNumber, Bool.or_eq_true, Bool.and_eq_true, beq_iff_eq] at begins
    rcases begins with digit | ⟨isMinus, _⟩
    · have unsigned : minus (c :: rest) = ([], c :: rest) := by
        unfold minus
        split
        · rename_i same
          cases same
          cases digit
        · rfl
      simp [source, sourceOf, unsigned, digits, digit]
    · subst isMinus
      simp [source, sourceOf, minus]

theorem first_source_ne_nil {afterDot : Bool} {c : Char} {rest : List Char} {l : Lexeme}
    (read : first afterDot c rest = .ok l) : l.source ≠ [] := by
  cases first_cases afterDot c rest with
  | mark isMark reads =>
    cases reads.symm.trans read
    simp [source, sourceOf, (kind_of_punctuation isMark).2.2]
  | string _ reads => exact string_ne_nil (reads.symm.trans read)
  | member _ inWord reads =>
    cases reads.symm.trans read
    simpa [source, sourceOf] using word_ne_nil inWord
  | number _ begins reads => exact number_ne_nil begins (reads.symm.trans read)
  | word _ begins reads =>
    cases reads.symm.trans read
    simpa [source, sourceOf, @ofWord_ne .string rfl] using
      word_ne_nil (Text.isIdentifierChar_of_start begins)
  | nothing _ _ _ _ _ reads => cases reads.symm.trans read

theorem first_rest_length {afterDot : Bool} {c : Char} {rest : List Char} {l : Lexeme}
    (read : first afterDot c rest = .ok l) : l.rest.length < (c :: rest).length := by
  have whole := congrArg List.length (first_source read)
  have filled := List.length_pos_iff.2 (first_source_ne_nil read)
  rw [List.length_append] at whole
  omega

end Lexeme

end Bindlang
