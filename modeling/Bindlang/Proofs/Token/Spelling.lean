import Bindlang.Proofs.Decimal.NumberGrammar
import Bindlang.Proofs.Token.Layout

namespace Bindlang

namespace Text

theorem eq_false_of_range {p : Char → Bool} {c : Char} {first last : Nat}
    (each : ∀ n ∈ List.range' first (last + 1 - first), p (Char.ofNat n) = false)
    (inside : first ≤ c.toNat ∧ c.toNat ≤ last) : p c = false := by
  have member : c.toNat ∈ List.range' first (last + 1 - first) := by
    rw [List.mem_range'_1]
    omega
  have none := each c.toNat member
  rwa [Char.ofNat_toNat] at none

theorem isIdentifierChar_of_isWhitespace {c : Char} (blank : isWhitespace c = true) :
    isIdentifierChar c = false := by
  have each : ∀ range ∈ whitespaceRanges, ∀ n ∈ List.range' range.1 (range.2 + 1 - range.1),
      isIdentifierChar (Char.ofNat n) = false := by decide +kernel
  obtain ⟨range, member, inside⟩ := List.any_eq_true.1 blank
  simp only [Bool.and_eq_true, decide_eq_true_eq] at inside
  exact eq_false_of_range (each range member) inside

theorem isWhitespace_of_isIdentifierChar {c : Char} (inWord : isIdentifierChar c = true) :
    isWhitespace c = false := by
  rw [← Bool.not_eq_true]
  intro blank
  rw [isIdentifierChar_of_isWhitespace blank] at inWord
  cases inWord

theorem isDigit_of_isIdentifierStart {c : Char} (start : isIdentifierStart c = true) :
    c.isDigit = false := by
  have each : ∀ n ∈ List.range' 48 (57 + 1 - 48), isIdentifierStart (Char.ofNat n) = false := by
    decide +kernel
  rw [← Bool.not_eq_true]
  intro digit
  have inside : 48 ≤ c.toNat ∧ c.toNat ≤ 57 := by
    simpa [Char.isDigit, UInt32.le_iff_toNat_le] using digit
  rw [eq_false_of_range each inside] at start
  cases start

abbrev IsMark (c : Char) (kind : TokenKind) : Prop :=
  TokenKind.ofPunctuation? c = some kind

theorem IsMark.outside {c : Char} {kind : TokenKind} (isMark : IsMark c kind) :
    isIdentifierChar c = false ∧ isWhitespace c = false := by
  unfold IsMark TokenKind.ofPunctuation? at isMark
  split at isMark <;> first | decide +kernel | cases isMark

theorem ofPunctuation_eq_none {c : Char} (inWord : isIdentifierChar c = true) :
    TokenKind.ofPunctuation? c = none := by
  cases mark : TokenKind.ofPunctuation? c with
  | none => rfl
  | some kind =>
    rw [(IsMark.outside mark).1] at inWord
    cases inWord

theorem not_mem_of_inWord {c : Char} {word : List Char} (outside : isIdentifierChar c = false)
    (inWord : word.all isIdentifierChar = true) : c ∉ word := by
  intro member
  rw [List.all_eq_true.1 inWord c member] at outside
  cases outside

theorem isIdentifierChar_quote : isIdentifierChar '"' = false := by decide +kernel

theorem isIdentifierChar_minus : isIdentifierChar '-' = false := by decide +kernel

end Text

namespace Lexeme

open Text NumberText

/-- The kind and the lexeme of a token that the lexer can read, directly behind a dot or not. -/
inductive Spelled : Bool → TokenKind → List Char → Prop
  | mark {afterDot : Bool} {c : Char} {kind : TokenKind}
      (isMark : IsMark c kind) : Spelled afterDot kind [c]
  | string {afterDot : Bool} {chars : List Char} (noQuote : '"' ∉ chars) :
      Spelled afterDot .string chars
  | number {afterDot negative : Bool} {chars : List Char} {d : Decimal}
      (isNumber : IsNumber chars negative d) (sign : afterDot = true → negative = true) :
      Spelled afterDot .number chars
  | member {chars : List Char} (notEmpty : chars ≠ [])
      (inWord : ∀ c ∈ chars, isIdentifierChar c = true) : Spelled true .identifier chars
  | word {c : Char} {chars : List Char} (start : isIdentifierStart c = true)
      (inWord : ∀ d ∈ chars, isIdentifierChar d = true) :
      Spelled false (.ofWord (c :: chars)) (c :: chars)

def Apart (rest : List Char) : Prop :=
  ∀ c ∈ rest.head?, isIdentifierChar c = false

/-- A text that does not go on with a token of the given kind. -/
def Ends : TokenKind → List Char → Prop
  | .number, rest => Apart rest ∧ rest.head? ≠ some '.'
  | .identifier, rest | .boolean, rest | .null, rest | .undefined, rest => Apart rest
  | _, _ => True

variable {afterDot : Bool} {kind : TokenKind} {c : Char} {chars rest more : List Char}

theorem ends_mark (isMark : IsMark c kind) (rest : List Char) : Ends kind rest := by
  unfold IsMark TokenKind.ofPunctuation? at isMark
  split at isMark <;> cases isMark <;> trivial

theorem ends_ofWord {word : List Char} (ends : Ends (.ofWord word) rest) : Apart rest := by
  unfold TokenKind.ofWord at ends
  split at ends
  · exact ends
  · split at ends
    · exact ends
    · split at ends <;> exact ends

abbrev BehindValue : List Char → Prop :=
  Ends .number

theorem BehindValue.ends (behind : BehindValue rest) (kind : TokenKind) :
    Ends kind rest := by
  cases kind with
  | number => exact behind
  | identifier | boolean | null | undefined => exact behind.1
  | _ => trivial

theorem behindValue_mark (isMark : IsMark c kind) (notDot : kind ≠ .dot)
    (rest : List Char) : BehindValue (c :: rest) := by
  refine ⟨fun d first => ?_, fun first => ?_⟩
  · cases first
    exact isMark.outside.1
  · cases first
    cases isMark
    exact notDot rfl

theorem behindValue_nil : BehindValue [] := by
  simp [Apart, Ends]

theorem behindValue_blank {blank : List Char} (isBlank : Token.Blank blank)
    (behind : blank = [] → BehindValue rest) : BehindValue (blank ++ rest) := by
  cases blank with
  | nil => exact behind rfl
  | cons c more =>
    have isWhitespace := isBlank c List.mem_cons_self
    refine ⟨fun d first => ?_, fun first => ?_⟩
    · cases first
      exact isIdentifierChar_of_isWhitespace isWhitespace
    · cases first
      exact absurd isWhitespace (by decide +kernel)

theorem stops_of_ends (ends : Ends .number rest) : Stops rest := by
  obtain ⟨apart, noPoint⟩ := ends
  intro c first
  have notInWord := apart c first
  refine ⟨?_, ?_, ?_, ?_⟩
  · rw [← Bool.not_eq_true]
    intro digit
    rw [isIdentifierChar_of_isDigit digit] at notInWord
    cases notInWord
  · rintro rfl
    exact noPoint first
  · rintro rfl
    exact absurd notInWord (by decide +kernel)
  · rintro rfl
    exact absurd notInWord (by decide +kernel)

theorem word_append_eq (inWord : ∀ c ∈ chars, isIdentifierChar c = true) (apart : Apart rest) :
    word (chars ++ rest) = (chars, rest) := by
  rw [word, List.takeWhile_append_stopped inWord apart, List.dropWhile_append_stopped inWord apart]

theorem string_append_eq (noQuote : '"' ∉ chars) (rest : List Char) :
    string (chars ++ '"' :: rest) = .ok ⟨.string, chars, rest⟩ := by
  have inside : ∀ c ∈ chars, (c != '"') = true := by
    intro c member
    simp only [bne_iff_ne]
    rintro rfl
    exact noQuote member
  have outside : ∀ c ∈ ('"' :: rest).head?, (c != '"') = false := by simp
  rw [string, List.takeWhile_append_stopped inside outside, List.dropWhile_append_stopped inside outside]

theorem ne_of_isIdentifierChar {d : Char} (inWord : isIdentifierChar c = true)
    (notInWord : isIdentifierChar d = false) : c ≠ d := by
  rintro rfl
  rw [inWord] at notInWord
  cases notInWord

theorem first_mark (isMark : IsMark c kind) :
    first afterDot c rest = .ok ⟨kind, [c], rest⟩ := by
  simp [first, isMark]

theorem first_string (noQuote : '"' ∉ chars) :
    first afterDot '"' (chars ++ '"' :: rest) = .ok ⟨.string, chars, rest⟩ :=
  string_append_eq noQuote rest

theorem first_number (notMember : (afterDot && isIdentifierChar c) = false)
    (begins : startsNumber c rest = true) : first afterDot c rest = number (c :: rest) := by
  have outside : TokenKind.ofPunctuation? c = none ∧ c ≠ '"' := by
    have either : c.isDigit = true ∨ c = '-' ∧ startsWithDigit rest = true := by
      simpa [startsNumber] using begins
    rcases either with digit | ⟨rfl, _⟩
    · have inWord := isIdentifierChar_of_isDigit digit
      exact ⟨ofPunctuation_eq_none inWord, ne_of_isIdentifierChar inWord isIdentifierChar_quote⟩
    · exact ⟨rfl, by decide⟩
  simp [first, outside, notMember, begins]

theorem first_digit (digit : c.isDigit = true) : first false c rest = number (c :: rest) :=
  first_number rfl (by simp [startsNumber, digit])

theorem first_minus (digit : startsWithDigit rest = true) :
    first afterDot '-' rest = number ('-' :: rest) :=
  first_number (by simp [isIdentifierChar_minus]) (by simp [startsNumber, digit])

theorem first_member (inWord : isIdentifierChar c = true)
    (read : word (c :: rest) = (chars, more)) :
    first true c rest = .ok ⟨.identifier, chars, more⟩ := by
  have notQuote := ne_of_isIdentifierChar inWord isIdentifierChar_quote
  simp [first, ofPunctuation_eq_none inWord, notQuote, inWord, read]

theorem first_word (start : isIdentifierStart c = true) (read : word (c :: rest) = (chars, more)) :
    first false c rest = .ok ⟨.ofWord chars, chars, more⟩ := by
  have inWord := isIdentifierChar_of_start start
  have notQuote := ne_of_isIdentifierChar inWord isIdentifierChar_quote
  have notMinus := ne_of_isIdentifierChar inWord isIdentifierChar_minus
  have notDigit := isDigit_of_isIdentifierStart start
  simp [first, ofPunctuation_eq_none inWord, notQuote, startsNumber, notDigit, notMinus, start, read]

theorem first_of_spelled (spelled : Spelled afterDot kind chars) (ends : Ends kind rest) :
    ∃ c more, sourceOf kind chars ++ rest = c :: more ∧ isWhitespace c = false ∧
      first afterDot c more = .ok ⟨kind, chars, rest⟩ := by
  cases spelled with
  | mark isMark =>
    refine ⟨_, rest, ?_, isMark.outside.2, first_mark isMark⟩
    rw [sourceOf, if_neg (kind_of_punctuation isMark).2.2]
    rfl
  | string noQuote =>
    exact ⟨'"', chars ++ '"' :: rest, by simp [sourceOf], by decide +kernel, first_string noQuote⟩
  | number isNumber sign =>
    have read := number_append_eq isNumber (stops_of_ends ends)
    -- Behind a dot a digit begins a member name, and only a minus sign a number.
    cases isNumber with
    | positive magnitude =>
      obtain ⟨c, more, rfl, digit⟩ := magnitude.exists_cons
      have notBehindDot : afterDot = false := by
        cases afterDot with
        | false => rfl
        | true => exact absurd (sign rfl) (by decide)
      subst notBehindDot
      refine ⟨c, more ++ rest, rfl, ?_, (first_digit digit).trans read⟩
      exact isWhitespace_of_isIdentifierChar (isIdentifierChar_of_isDigit digit)
    | negative magnitude =>
      refine ⟨'-', _ ++ rest, rfl, by decide +kernel, (first_minus ?_).trans read⟩
      obtain ⟨c, more, rfl, digit⟩ := magnitude.exists_cons
      simp [startsWithDigit, digit]
  | member notEmpty inWord =>
    have read := word_append_eq inWord ends
    cases chars with
    | nil => exact absurd rfl notEmpty
    | cons c more =>
      have inWordFirst := inWord c List.mem_cons_self
      exact ⟨c, more ++ rest, rfl, isWhitespace_of_isIdentifierChar inWordFirst,
        first_member inWordFirst read⟩
  | @word c more start inWord =>
    have inWordFirst := isIdentifierChar_of_start start
    have read := word_append_eq (List.forall_mem_cons.2 ⟨inWordFirst, inWord⟩) (ends_ofWord ends)
    refine ⟨c, more ++ rest, ?_, isWhitespace_of_isIdentifierChar inWordFirst,
      first_word start read⟩
    rw [sourceOf, if_neg (ofWord_ne rfl _)]
    rfl

end Lexeme

namespace Token

open Lexeme Text

variable {afterDot : Bool} {kind : TokenKind} {c : Char} {chars rest : List Char} {p : Position}

theorem scanFrom_eq (afterDot : Bool) (p : Position) (text : List Char) :
    scanFrom afterDot p text =
      match (skipBlank p text).2 with
      | [] => .ok []
      | c :: rest =>
        match first afterDot c rest with
        | .error fault => .error (.ofFault (skipBlank p text).1 fault)
        | .ok l =>
          (scanFrom (l.kind == .dot) ((skipBlank p text).1.after l.source) l.rest).map
            (⟨l.kind, .ofList l.chars, (skipBlank p text).1⟩ :: ·) := by
  rw [scanFrom]
  split
  · rename_i nothing
    rw [nothing]
  · rename_i c rest more
    split
    · rename_i fault failed
      simp only [more, failed]
    · rename_i l read
      simp only [more, read]

theorem scanFrom_blank {blank : List Char} (isBlank : Blank blank) :
    scanFrom afterDot p (blank ++ rest) = scanFrom afterDot (p.after blank) rest := by
  have same : skipBlank p (blank ++ rest) = skipBlank (p.after blank) rest := by
    rw [skipBlank, skipBlank, List.takeWhile_append_of_pos isBlank,
      List.dropWhile_append_of_pos isBlank, Position.after_append]
  rw [scanFrom_eq, scanFrom_eq afterDot (p.after blank), same]

theorem scanFrom_token (spelled : Spelled afterDot kind chars) (ends : Ends kind rest) :
    scanFrom afterDot p (sourceOf kind chars ++ rest) =
      (scanFrom (kind == .dot) (p.after (sourceOf kind chars)) rest).map
        (⟨kind, .ofList chars, p⟩ :: ·) := by
  obtain ⟨c, more, begins, visible, read⟩ := first_of_spelled spelled ends
  have here : skipBlank p (c :: more) = (p, c :: more) := by simp [skipBlank, visible]
  rw [begins, scanFrom_eq, here]
  simp only [read, Lexeme.source]

/-- Before any such rest the text is read as such tokens, and then the rest is read. -/
def Lexes (afterDot : Bool) (text : List Char) (behindDot : Bool) (Rest : List Char → Prop)
    (Holds : List Token → Prop) : Prop :=
  ∀ p rest, Rest rest → ∃ ts p', Holds ts ∧
    scanFrom afterDot p (text ++ rest) = (scanFrom behindDot p' rest).map (ts ++ ·)

variable {between behindDot : Bool} {text more : List Char}
  {Middle Rest Fewer : List Char → Prop} {Holds Others Both : List Token → Prop}

theorem Lexes.imp (lexes : Lexes afterDot text behindDot Rest Holds)
    (rests : ∀ rest, Fewer rest → Rest rest) (weaker : ∀ ts, Holds ts → Others ts) :
    Lexes afterDot text behindDot Fewer Others := by
  intro p rest isRest
  obtain ⟨ts, p', holds, read⟩ := lexes p rest (rests rest isRest)
  exact ⟨ts, p', weaker ts holds, read⟩

theorem scanFrom_nil (afterDot : Bool) (p : Position) : scanFrom afterDot p [] = .ok [] := by
  rw [scanFrom_eq]
  rfl

theorem map_map (x : Except LexError (List Token)) (ts us : List Token) :
    (x.map (us ++ ·)).map (ts ++ ·) = x.map (ts ++ us ++ ·) := by
  cases x <;> simp [Except.map]

theorem Lexes.append (before : Lexes afterDot text between Middle Holds)
    (behind : Lexes between more behindDot Rest Others)
    (goesOn : ∀ rest, Rest rest → Middle (more ++ rest))
    (both : ∀ ts us, Holds ts → Others us → Both (ts ++ us)) :
    Lexes afterDot (text ++ more) behindDot Rest Both := by
  intro p rest isRest
  obtain ⟨ts, p', holds, read⟩ := before p (more ++ rest) (goesOn rest isRest)
  obtain ⟨us, p'', others, readMore⟩ := behind p' rest isRest
  refine ⟨ts ++ us, p'', both ts us holds others, ?_⟩
  rw [List.append_assoc, read, readMore, map_map]

theorem Lexes.blank (isBlank : Blank chars) (lexes : Lexes afterDot text behindDot Rest Holds) :
    Lexes afterDot (chars ++ text) behindDot Rest Holds := by
  intro p rest isRest
  rw [List.append_assoc, scanFrom_blank isBlank]
  exact lexes (p.after chars) rest isRest

theorem lexes_nothing : Lexes afterDot [] afterDot Rest (· = []) := by
  intro p rest _
  refine ⟨[], p, rfl, ?_⟩
  change scanFrom afterDot p rest = (scanFrom afterDot p rest).map id
  cases scanFrom afterDot p rest <;> rfl

theorem Lexes.append_blank (isBlank : Blank chars)
    (lexes : Lexes afterDot text behindDot BehindValue Holds) :
    Lexes afterDot (text ++ chars) behindDot BehindValue Holds := by
  intro p rest behind
  obtain ⟨ts, p', holds, read⟩ := lexes p (chars ++ rest) (behindValue_blank isBlank fun _ => behind)
  refine ⟨ts, p'.after chars, holds, ?_⟩
  rw [List.append_assoc, read, scanFrom_blank isBlank]

theorem lexes_token (spelled : Spelled afterDot kind chars) :
    Lexes afterDot (sourceOf kind chars) (kind == .dot) (Ends kind)
      (fun ts => ∃ t, ts = [t] ∧ t.kind = kind ∧ t.lexeme = .ofList chars) := by
  intro p rest ends
  exact ⟨_, _, ⟨_, rfl, rfl, rfl⟩, scanFrom_token spelled ends⟩

theorem lexes_mark (afterDot : Bool) (isMark : IsMark c kind) :
    Lexes afterDot [c] (kind == .dot) (fun _ => True)
      (fun ts => ∃ t, ts = [t] ∧ t.kind = kind) := by
  have lexes := lexes_token (.mark isMark : Spelled afterDot kind [c])
  rw [sourceOf, if_neg (kind_of_punctuation isMark).2.2] at lexes
  refine lexes.imp (fun rest _ => ends_mark isMark rest) ?_
  rintro _ ⟨t, rfl, isKind, _⟩
  exact ⟨t, rfl, isKind⟩

theorem Lexes.cons_mark (afterDot : Bool) (isMark : IsMark c kind)
    (isDot : (kind == .dot) = between) (behind : Lexes between text behindDot Rest Holds) :
    Lexes afterDot (c :: text) behindDot Rest
      (fun ts => ∃ t us, ts = t :: us ∧ t.kind = kind ∧ Holds us) := by
  subst isDot
  refine (lexes_mark afterDot isMark).append behind (fun _ _ => trivial) ?_
  rintro _ us ⟨t, rfl, isKind⟩ holds
  exact ⟨t, us, rfl, isKind, holds⟩

theorem Lexes.append_mark (isMark : IsMark c kind) (notDot : kind ≠ .dot)
    (before : Lexes afterDot text false BehindValue Holds) :
    Lexes afterDot (text ++ [c]) false (fun _ => True)
      (fun ts => ∃ us u, ts = us ++ [u] ∧ Holds us ∧ u.kind = kind) := by
  have mark := lexes_mark false isMark
  rw [beq_false_of_ne notDot] at mark
  refine before.append mark (fun rest _ => behindValue_mark isMark notDot rest) ?_
  rintro us _ holds ⟨u, rfl, isKind⟩
  exact ⟨us, u, rfl, holds, isKind⟩

theorem blank_nil : Blank [] :=
  List.forall_mem_nil _

theorem blank_space : Blank [' '] := by
  intro c member
  rw [List.mem_singleton.1 member]
  decide +kernel

end Token

end Bindlang
