import Bindlang.Proofs.Token.SpacedTokens

namespace Bindlang

namespace NumberText

open Lexeme

variable {text : List Char}

theorem digits_of_startsWithDigit (begins : startsWithDigit text = true) :
    Digits (digits text).1 := by
  cases text with
  | nil => cases begins
  | cons c more =>
    have digit : c.isDigit = true := by simpa [startsWithDigit] using begins
    exact ⟨by simp [digits, digit], List.all_eq_true.1 List.all_takeWhile⟩

theorem isWhole_of_digits (begins : startsWithDigit text = true)
    (alone : digitBehindZero? text = none) : IsWhole (digits text).1 := by
  refine ⟨digits_of_startsWithDigit begins, ?_⟩
  cases text with
  | nil => cases begins
  | cons c more =>
    have digit : c.isDigit = true := by simpa [startsWithDigit] using begins
    intro zero
    have isZero : c = '0' := by simpa [digits, digit] using zero
    subst isZero
    cases more with
    | nil => rfl
    | cons d more =>
      have noDigit : d.isDigit = false := by simpa [digitBehindZero?] using alone
      simp [digits, noDigit]

theorem exists_isFraction (text : List Char) : ∃ part, IsFraction (fraction text).1 part := by
  unfold fraction
  split
  · split
    · rename_i begins
      exact ⟨_, .some (digits_of_startsWithDigit begins)⟩
    · exact ⟨[], .none⟩
  · exact ⟨[], .none⟩

theorem exists_isSign (text : List Char) : ∃ negative, IsSign (sign text).1 negative := by
  unfold sign
  split
  · exact ⟨false, .plus⟩
  · exact ⟨true, .minus⟩
  · exact ⟨false, .none⟩

theorem exists_isExponent (text : List Char) : ∃ e, IsExponent (exponent text).1 e := by
  cases text with
  | nil => exact ⟨0, .none⟩
  | cons e rest =>
    simp only [exponent]
    split
    · rename_i both
      obtain ⟨negative, isSign⟩ := exists_isSign rest
      exact ⟨_, .some both.1 isSign (digits_of_startsWithDigit both.2)⟩
    · exact ⟨0, .none⟩

theorem exists_isMagnitude (begins : startsWithDigit text = true)
    (alone : digitBehindZero? text = none) :
    ∃ d, IsMagnitude ((digits text).1 ++ ((fraction (digits text).2).1 ++
      (exponent (fraction (digits text).2).2).1)) d := by
  obtain ⟨part, isFraction⟩ := exists_isFraction (digits text).2
  obtain ⟨e, isExponent⟩ := exists_isExponent (fraction (digits text).2).2
  exact ⟨_, .mk (isWhole_of_digits begins alone) isFraction isExponent⟩

theorem exists_isNumber_of_read {c : Char} {rest : List Char} {l : Lexeme}
    (begins : startsNumber c rest = true) (read : number (c :: rest) = .ok l) :
    l.kind = .number ∧ (∃ negative d, IsNumber l.chars negative d) ∧
      (c.isDigit = false → l.chars.head? = some '-') := by
  unfold number at read
  split at read
  · cases read
  · rename_i alone
    cases read
    refine ⟨rfl, ?_⟩
    by_cases signed : c = '-'
    · subst signed
      have digit : startsWithDigit rest = true := by simpa [startsNumber] using begins
      obtain ⟨d, magnitude⟩ := exists_isMagnitude digit alone
      refine ⟨⟨true, d, ?_⟩, fun _ => rfl⟩
      simpa [minus] using IsNumber.negative magnitude
    · have unsigned : minus (c :: rest) = ([], c :: rest) := by simp [minus, signed]
      have digit : c.isDigit = true := by simpa [startsNumber, signed] using begins
      rw [unsigned] at alone
      have first : startsWithDigit (c :: rest) = true := by simpa [startsWithDigit] using digit
      obtain ⟨d, magnitude⟩ := exists_isMagnitude first alone
      refine ⟨⟨false, d, ?_⟩, ?_⟩
      · simpa [unsigned] using IsNumber.positive magnitude
      · rw [digit]
        intro none
        cases none

end NumberText

theorem Lexeme.unquoted_of_string {text : List Char} {l : Lexeme} (read : string text = .ok l) :
    l.kind = .string ∧ '"' ∉ l.chars := by
  unfold string at read
  split at read
  · cases read
  · cases read
    refine ⟨rfl, fun quote => ?_⟩
    have inside : ∀ d ∈ text.takeWhile (· != '"'), (d != '"') = true :=
      List.all_eq_true.1 List.all_takeWhile
    exact absurd (inside '"' quote) (by decide)

namespace Token

open Lexeme NumberText Text

variable {afterDot : Bool} {c : Char} {rest text : List Char} {l : Lexeme} {p : Position}
  {ts : List Token}

theorem isLexeme_of_mark {kind : TokenKind} (isMark : IsMark c kind) :
    IsLexeme afterDot kind (.ofList [c]) := by
  unfold IsMark TokenKind.ofPunctuation? at isMark
  split at isMark <;> cases isMark <;> rfl

theorem isLexeme_of_word {word : List Char} (begins : word.head?.any isIdentifierStart = true)
    (inWord : word.all isIdentifierChar = true) :
    IsLexeme false (.ofWord word) (.ofList word) := by
  unfold TokenKind.ofWord
  split
  · rename_i boolean
    rcases boolean with rfl | rfl
    · exact ⟨rfl, .inl rfl⟩
    · exact ⟨rfl, .inr rfl⟩
  · rename_i notBoolean
    split
    · rename_i isNull
      subst isNull
      exact ⟨rfl, rfl⟩
    · rename_i notNull
      split
      · rename_i isUndefined
        subst isUndefined
        exact ⟨rfl, rfl⟩
      · rename_i notUndefined
        refine ⟨by rwa [String.toList_ofList], by rwa [String.toList_ofList], ?_⟩
        simp only [keywords, List.mem_cons, List.not_mem_nil, or_false, ← String.toList_inj,
          String.toList_ofList]
        rintro (isTrue | isFalse | isNull | isUndefined)
        · exact notBoolean (.inl isTrue)
        · exact notBoolean (.inr isFalse)
        · exact notNull isNull
        · exact notUndefined isUndefined

theorem isMember_of_read (inWord : isIdentifierChar c = true) (rest : List Char) :
    IsMember (.ofList (word (c :: rest)).1) := by
  refine ⟨?_, ?_⟩
  · intro empty
    have none : (word (c :: rest)).1 = [] := by
      simpa using congrArg String.toList empty
    exact word_ne_nil inWord none
  · rw [String.toList_ofList]
    exact List.all_takeWhile

theorem head_word (begins : isIdentifierStart c = true) (rest : List Char) :
    (word (c :: rest)).1.head?.any isIdentifierStart = true := by
  simp [word, isIdentifierChar_of_start begins, begins]

theorem isLexeme_of_number (notMember : (afterDot && isIdentifierChar c) = false)
    (begins : startsNumber c rest = true) (read : number (c :: rest) = .ok l) :
    IsLexeme afterDot l.kind (.ofList l.chars) := by
  obtain ⟨isKind, isNumber, signed⟩ := exists_isNumber_of_read begins read
  rw [isKind]
  refine ⟨by rwa [String.toList_ofList], fun behindDot => ?_⟩
  rw [String.toList_ofList]
  apply signed
  rw [← Bool.not_eq_true]
  intro digit
  rw [behindDot, isIdentifierChar_of_isDigit digit] at notMember
  cases notMember

theorem isLexeme_of_first (read : first afterDot c rest = .ok l) :
    IsLexeme afterDot l.kind (.ofList l.chars) := by
  cases first_cases afterDot c rest with
  | mark isMark reads =>
    cases reads.symm.trans read
    exact isLexeme_of_mark isMark
  | string _ reads =>
    obtain ⟨isString, noQuote⟩ := unquoted_of_string (reads.symm.trans read)
    rw [isString]
    change '"' ∉ (String.ofList l.chars).toList
    rwa [String.toList_ofList]
  | member behindDot inWord reads =>
    cases reads.symm.trans read
    rw [behindDot]
    exact isMember_of_read inWord rest
  | number notMember begins reads =>
    exact isLexeme_of_number notMember begins (reads.symm.trans read)
  | word notBehindDot begins reads =>
    cases reads.symm.trans read
    rw [notBehindDot]
    exact isLexeme_of_word (head_word begins rest) List.all_takeWhile
  | nothing _ _ _ _ _ reads => cases reads.symm.trans read

/-- The lexer reads tokens that can follow each other. -/
theorem areLexemes_of_scanFrom (scanned : scanFrom afterDot p text = .ok ts) :
    AreLexemes afterDot (ts.map kindAndLexeme) := by
  fun_induction scanFrom afterDot p text generalizing ts with
  | case1 =>
    cases scanned
    trivial
  | case2 => cases scanned
  | case3 =>
    rename_i read _ ih
    obtain ⟨others, behind, rfl⟩ := Except.map_eq_ok_iff.1 scanned
    exact ⟨isLexeme_of_first read, ih behind⟩

theorem exists_isLexeme_of_mem {parts : List (TokenKind × String)}
    (valid : AreLexemes afterDot parts) : ∀ part ∈ parts, ∃ behind, IsLexeme behind part.1 part.2 := by
  induction parts generalizing afterDot with
  | nil => simp
  | cons part parts ih => exact List.forall_mem_cons.2 ⟨⟨afterDot, valid.1⟩, ih valid.2⟩

theorem exists_isNumber_of_scanFrom (scanned : scanFrom afterDot p text = .ok ts) {t : Token}
    (member : t ∈ ts) (kind : t.kind = .number) : ∃ negative d, IsNumber t.lexeme.toList negative d := by
  have inside : (.number, t.lexeme) ∈ ts.map kindAndLexeme := by
    rw [← kind]
    exact List.mem_map_of_mem member
  obtain ⟨_, isNumber, _⟩ := exists_isLexeme_of_mem (areLexemes_of_scanFrom scanned) _ inside
  exact isNumber

end Token

end Bindlang
