import Bindlang.Proofs.Token.Locality
import Bindlang.Proofs.Token.Soundness

namespace Bindlang

namespace NumberText

open Lexeme

variable {text fraction part power rest : List Char} {exponent : Int} {d : Decimal}

theorem isPrefix_digits (digits : Digits text) (rest : List Char) :
    text <+: (Lexeme.digits (text ++ rest)).1 := by
  rw [Lexeme.digits, List.takeWhile_append_of_pos digits.2]
  exact List.prefix_append text _

theorem isPrefix_fraction (isFraction : IsFraction fraction part) (rest : List Char) :
    fraction <+: (Lexeme.fraction (fraction ++ rest)).1 := by
  cases isFraction with
  | none => exact List.nil_prefix
  | some digits =>
    rw [List.cons_append, Lexeme.fraction, startsWithDigit_append digits, if_pos rfl,
      List.cons_prefix_cons]
    exact ⟨rfl, isPrefix_digits digits rest⟩

theorem isPrefix_exponent (isExponent : IsExponent power exponent) (rest : List Char) :
    power <+: (Lexeme.exponent (power ++ rest)).1 := by
  cases isExponent with
  | none => exact List.nil_prefix
  | some letter isSign digits =>
    rw [List.cons_append, List.append_assoc, Lexeme.exponent, sign_append_eq isSign digits,
      if_pos ⟨letter, startsWithDigit_append digits rest⟩, List.cons_prefix_cons,
      List.prefix_append_right_inj]
    exact ⟨rfl, isPrefix_digits digits rest⟩

def takenMagnitude (text : List Char) : List Char :=
  let whole := Lexeme.digits text
  let part := Lexeme.fraction whole.2
  whole.1 ++ (part.1 ++ (Lexeme.exponent part.2).1)

theorem isPrefix_takenMagnitude (magnitude : IsMagnitude text d) (rest : List Char) :
    text <+: takenMagnitude (text ++ rest) := by
  cases magnitude with
  | @mk whole fraction part power exponent isWhole isFraction isExponent =>
    unfold takenMagnitude
    rw [List.append_assoc, List.append_assoc]
    -- Only the last part of the number might be read as a longer one.
    cases isExponent with
    | none =>
      rw [List.append_nil, List.nil_append]
      cases isFraction with
      | none =>
        rw [List.append_nil]
        exact (isPrefix_digits isWhole.1 rest).trans (List.prefix_append _ _)
      | @some part digits =>
        have noDigit : NoDigit (('.' :: part) ++ rest) := by
          intro c first
          cases first
          decide
        rw [digits_append_eq isWhole.1 noDigit, List.prefix_append_right_inj]
        exact (isPrefix_fraction (.some digits) rest).trans (List.prefix_append _ _)
    | @some e sign ds negative letter isSign digits =>
      have noDigit : NoDigit ((e :: (sign ++ ds)) ++ rest) := by
        intro c first
        cases first
        rcases letter with rfl | rfl <;> decide
      have noPoint : ((e :: (sign ++ ds)) ++ rest).head? ≠ some '.' := by
        intro first
        cases first
        rcases letter with same | same <;> cases same
      rw [digits_append_eq isWhole.1 (noDigit_fraction isFraction noDigit),
        List.prefix_append_right_inj, fraction_append_eq isFraction noDigit noPoint,
        List.prefix_append_right_inj]
      exact isPrefix_exponent (.some letter isSign digits) rest

theorem isPrefix_of_read {negative : Bool} {l : Lexeme} (isNumber : IsNumber text negative d)
    (front : text <+: rest) (read : number rest = .ok l) : text <+: l.chars := by
  obtain ⟨more, rfl⟩ := front
  unfold number at read
  split at read
  · cases read
  · cases read
    rw [List.append_assoc, List.append_assoc]
    cases isNumber with
    | positive magnitude =>
      rw [minus_of_magnitude magnitude more, List.nil_append]
      exact isPrefix_takenMagnitude magnitude more
    | negative magnitude => exact List.cons_prefix_cons.2 ⟨rfl, isPrefix_takenMagnitude magnitude more⟩

end NumberText

namespace Lexeme

open Text

variable {afterDot : Bool} {c : Char} {text rest : List Char} {l : Lexeme}

theorem kind_of_number (read : number text = .ok l) : l.kind = .number := by
  unfold number at read
  split at read <;> cases read
  rfl

theorem bounds_of_first (read : first afterDot c rest = .ok l) :
    (l.kind.isWord = true → Apart l.rest) ∧
      (l.kind = .number → number (c :: rest) = .ok l) := by
  cases first_cases afterDot c rest with
  | mark isMark reads =>
    cases reads.symm.trans read
    obtain ⟨noWord, noNumber, _⟩ := kind_of_punctuation isMark
    exact ⟨fun isWord => absurd isWord (by simp [noWord]), fun isNumber => absurd isNumber noNumber⟩
  | string _ reads =>
    rw [(unquoted_of_string (reads.symm.trans read)).1]
    exact ⟨nofun, nofun⟩
  | member _ _ reads =>
    cases reads.symm.trans read
    exact ⟨fun _ => apart_word _, nofun⟩
  | number _ _ reads =>
    have readNumber := reads.symm.trans read
    rw [kind_of_number readNumber]
    exact ⟨nofun, fun _ => readNumber⟩
  | word _ _ reads =>
    cases reads.symm.trans read
    exact ⟨fun _ => apart_word _, fun isNumber => absurd isNumber (ofWord_ne rfl _)⟩
  | nothing _ _ _ _ _ reads => cases reads.symm.trans read

end Lexeme

namespace Token

open Lexeme NumberText Text

variable {afterDot : Bool} {p : Position} {text : List Char} {t : Token} {ts before behind : List Token}

/-- A word that the text does not go on with, or the longest number that it begins with. -/
structure Longest (afterDot : Bool) (t : Token) (text : List Char) : Prop where
  isLexeme : IsLexeme afterDot t.kind t.lexeme
  name : t.kind = .identifier → afterDot = false → ∀ c ∈ t.lexeme.toList.head?, c.isDigit = false
  front : t.source <+: text
  word : t.kind.isWord = true → Apart (text.drop t.source.length)
  number : t.kind = .number → ∀ chars negative d, IsNumber chars negative d → chars <+: text →
    chars <+: t.lexeme.toList

theorem longest_of_first {c : Char} {rest : List Char} {l : Lexeme}
    (read : first afterDot c rest = .ok l) (p : Position) :
    Longest afterDot ⟨l.kind, .ofList l.chars, p⟩ (c :: rest) := by
  have isLexeme := isLexeme_of_first read
  have whole := first_source read
  have source := source_ofLexeme l p
  obtain ⟨isWord, isNumber⟩ := bounds_of_first read
  refine ⟨isLexeme, ?_, ?_, ?_, ?_⟩
  · intro isName notBehindDot d first
    change l.kind = _ at isName
    subst notBehindDot
    rw [isName] at isLexeme
    have begins := isLexeme.begins
    change _ ∈ (String.ofList l.chars).toList.head? at first
    rw [Option.mem_def.1 first] at begins
    exact isDigit_of_isIdentifierStart begins
  · rw [source, ← whole]
    exact List.prefix_append _ _
  · rw [source, ← whole, List.drop_left]
    exact isWord
  · intro number chars negative d isChars front
    change _ <+: (String.ofList l.chars).toList
    rw [String.toList_ofList]
    exact isPrefix_of_read isChars front (isNumber number)

theorem exists_longest_of_scanFrom (scanned : scanFrom afterDot p text = .ok (before ++ t :: behind)) :
    ∃ skipped here, text = skipped ++ here ∧ t.position = p.after skipped ∧
      t.Longest (endsInDot afterDot before) here := by
  generalize whole : before ++ t :: behind = ts at scanned
  fun_induction scanFrom afterDot p text generalizing ts before with
  | case1 =>
    cases scanned
    simp at whole
  | case2 => cases scanned
  | case3 =>
    rename_i afterDot p text c rest more here l read _ ih
    obtain ⟨others, scannedOthers, rfl⟩ := Except.map_eq_ok_iff.1 scanned
    have blank := takeWhile_append_skipBlank p text
    rw [more] at blank
    cases before with
    | nil =>
      obtain ⟨rfl, rfl⟩ := List.cons.inj whole
      exact ⟨_, _, blank.symm, rfl, longest_of_first read here⟩
    | cons u before =>
      obtain ⟨rfl, rfl⟩ := List.cons.inj whole
      obtain ⟨skipped, there, rest, place, longest⟩ := ih _ rfl scannedOthers
      refine ⟨text.takeWhile isWhitespace ++ (l.source ++ skipped), there, ?_, ?_, longest⟩
      · rw [List.append_assoc, List.append_assoc, ← rest, first_source read, blank]
      · rw [place, Position.after_append, Position.after_append]
        rfl

/-- Every token is one of its kind and as long as it can be, where it stands in the text. -/
theorem scan_longest {text : String} (scanned : scan text = .ok (before ++ t :: behind)) :
    t.Longest (endsInDot false before) (text.toList.drop t.position.offset) := by
  obtain ⟨skipped, here, whole, place, longest⟩ := exists_longest_of_scanFrom scanned
  have offset : t.position.offset = skipped.length := by
    rw [place, Position.offset_after]
    exact Nat.zero_add _
  rwa [whole, offset, List.drop_left]

theorem longest_number_behind_dot :
    let before : List Token := [⟨.identifier, "x", ⟨1, 1, 0⟩⟩, ⟨.dot, ".", ⟨1, 2, 1⟩⟩]
    let t : Token := ⟨.number, "-1.5", ⟨1, 4, 3⟩⟩
    let behind : List Token := [⟨.dot, ".", ⟨1, 8, 7⟩⟩, ⟨.identifier, "5e0", ⟨1, 9, 8⟩⟩]
    scan "x. -1.5.5e0" = .ok (before ++ t :: behind) ∧
      t.Longest (endsInDot false before) ("x. -1.5.5e0".toList.drop t.position.offset) := by
  intro before t behind
  have scanned : scan "x. -1.5.5e0" = .ok (before ++ t :: behind) := by decide +kernel
  exact ⟨scanned, scan_longest scanned⟩

end Token

end Bindlang
