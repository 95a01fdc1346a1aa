import Bindlang.Proofs.Token.Soundness

namespace Bindlang.Lexeme

open NumberText Text

/-- A text that goes on with no token with which `rest` does not go on. -/
structure NoFurther (rest rest' : List Char) : Prop where
  word : Apart rest → Apart rest'
  digit : startsWithDigit rest = false → startsWithDigit rest' = false
  signed : startsWithDigit (sign rest).2 = false → startsWithDigit (sign rest').2 = false
  point : (fraction rest).1 = [] → (fraction rest').1 = []
  power : (exponent rest).1 = [] → (exponent rest').1 = []

variable {rest rest' text : List Char} {c d : Char} {afterDot : Bool}

theorem noFurther_refl (rest : List Char) : NoFurther rest rest :=
  ⟨id, id, id, id, id⟩

theorem noFurther_nil (rest : List Char) : NoFurther rest [] :=
  ⟨fun _ => nofun, fun _ => rfl, fun _ => rfl, fun _ => rfl, fun _ => rfl⟩

theorem sign_cons (notPlus : c ≠ '+') (notMinus : c ≠ '-') : sign (c :: rest) = ([], c :: rest) := by
  simp [sign, notPlus, notMinus]

theorem fraction_cons (notPoint : c ≠ '.') : fraction (c :: rest) = ([], c :: rest) := by
  simp [fraction, notPoint]

theorem exponent_cons (notLetter : ¬(c = 'e' ∨ c = 'E')) :
    exponent (c :: rest) = ([], c :: rest) := by
  simp [exponent, notLetter]

theorem fraction_point_eq_nil_iff :
    (fraction ('.' :: rest)).1 = [] ↔ startsWithDigit rest = false := by
  simp only [fraction]
  split
  · rename_i digit
    simp [digit]
  · rename_i noDigit
    simp [noDigit]

theorem exponent_letter_eq_nil_iff (letter : c = 'e' ∨ c = 'E') :
    (exponent (c :: rest)).1 = [] ↔ startsWithDigit (sign rest).2 = false := by
  simp only [exponent, letter, true_and]
  split
  · rename_i digit
    simp [digit]
  · rename_i noDigit
    simp [noDigit]

theorem noFurther_of_head (signed : c = '+' ∨ c = '-' → startsWithDigit rest = false →
      startsWithDigit rest' = false)
    (point : c = '.' → startsWithDigit rest = false → startsWithDigit rest' = false)
    (power : c = 'e' ∨ c = 'E' → startsWithDigit (sign rest).2 = false →
      startsWithDigit (sign rest').2 = false) : NoFurther (c :: rest) (c :: rest') := by
  refine ⟨fun apart => apart, fun digit => digit, ?_, ?_, ?_⟩
  · by_cases plus : c = '+'
    · subst plus
      exact signed (.inl rfl)
    · by_cases minus : c = '-'
      · subst minus
        exact signed (.inr rfl)
      · rw [sign_cons plus minus, sign_cons plus minus]
        exact fun digit => digit
  · by_cases isPoint : c = '.'
    · subst isPoint
      rw [fraction_point_eq_nil_iff, fraction_point_eq_nil_iff]
      exact point rfl
    · rw [fraction_cons isPoint, fraction_cons isPoint]
      exact fun _ => rfl
  · by_cases letter : c = 'e' ∨ c = 'E'
    · rw [exponent_letter_eq_nil_iff letter, exponent_letter_eq_nil_iff letter]
      exact power letter
    · rw [exponent_cons letter, exponent_cons letter]
      exact fun _ => rfl

theorem NoFurther.cons (further : NoFurther rest rest') (c : Char) :
    NoFurther (c :: rest) (c :: rest') :=
  noFurther_of_head (fun _ => further.digit) (fun _ => further.digit) fun _ => further.signed

theorem NoFurther.append (further : NoFurther rest rest') (text : List Char) :
    NoFurther (text ++ rest) (text ++ rest') := by
  induction text with
  | nil => exact further
  | cons c text ih => exact ih.cons c

theorem noDigit_iff : NoDigit rest ↔ startsWithDigit rest = false := by
  cases rest with
  | nil => simp [NoDigit, startsWithDigit]
  | cons c more => simp [NoDigit, startsWithDigit]

theorem NoFurther.noDigit (further : NoFurther rest rest') (noDigit : NoDigit rest) :
    NoDigit rest' :=
  noDigit_iff.2 (further.digit (noDigit_iff.1 noDigit))

/-- What is read off the front is read also before another text that goes no further. -/
def Steady (read : List Char → List Char × List Char) : Prop :=
  ∀ text rest', NoFurther (read text).2 rest' → read ((read text).1 ++ rest') = ((read text).1, rest')

theorem apart_word (text : List Char) : Apart (word text).2 :=
  List.stopped_of_dropWhile isIdentifierChar text

theorem noDigit_digits (text : List Char) : NoDigit (digits text).2 :=
  List.stopped_of_dropWhile Char.isDigit text

theorem steady_word : Steady word := by
  intro text rest' further
  have inWord : ∀ c ∈ (word text).1, isIdentifierChar c = true :=
    List.all_eq_true.1 List.all_takeWhile
  exact word_append_eq inWord (further.word (apart_word text))

theorem steady_digits : Steady digits := by
  intro text rest' further
  have areDigits : ∀ c ∈ (digits text).1, c.isDigit = true :=
    List.all_eq_true.1 List.all_takeWhile
  have noDigit := further.noDigit (noDigit_digits text)
  rw [digits, List.takeWhile_append_stopped areDigits noDigit,
    List.dropWhile_append_stopped areDigits noDigit]

theorem eq_of_nothing_taken {read : List Char → List Char × List Char}
    (parts : (read text).1 ++ (read text).2 = text) (nothing : (read text).1 = []) :
    read text = ([], text) := by
  rw [nothing, List.nil_append] at parts
  exact Prod.ext nothing parts

theorem steady_fraction : Steady fraction := by
  intro text rest' further
  by_cases nothing : (fraction text).1 = []
  · rw [eq_of_nothing_taken (fraction_append text) nothing] at further ⊢
    exact eq_of_nothing_taken (fraction_append rest') (further.point nothing)
  · unfold fraction at nothing further ⊢
    split at nothing
    · split at nothing
      · rename_i rest begins
        have areDigits := digits_of_startsWithDigit begins
        simp only [begins, if_true] at further
        simp only [begins, if_true, List.cons_append, startsWithDigit_append areDigits,
          steady_digits rest rest' further]
      · exact absurd rfl nothing
    · exact absurd rfl nothing

theorem steady_exponent : Steady exponent := by
  intro text rest' further
  by_cases nothing : (exponent text).1 = []
  · rw [eq_of_nothing_taken (exponent_append text) nothing] at further ⊢
    exact eq_of_nothing_taken (exponent_append rest') (further.power nothing)
  · cases text with
    | nil => exact absurd rfl nothing
    | cons e rest =>
      simp only [exponent] at nothing further ⊢
      split at nothing
      · rename_i both
        obtain ⟨negative, isSign⟩ := exists_isSign rest
        have areDigits := digits_of_startsWithDigit both.2
        simp only [if_pos both] at further ⊢
        have run := steady_digits (sign rest).2 rest' further
        rw [List.cons_append, List.append_assoc]
        simp only [sign_append_eq isSign areDigits, run]
        rw [if_pos ⟨both.1, startsWithDigit_append areDigits rest'⟩]
      · exact absurd rfl nothing

theorem exists_minus (begins : startsNumber c rest = true) :
    ∃ s unsigned, minus (c :: rest) = (s, unsigned) ∧ startsWithDigit unsigned = true ∧
      (s = [] ∨ s = ['-']) := by
  by_cases signed : c = '-'
  · subst signed
    exact ⟨['-'], rest, rfl, by simpa [startsNumber] using begins, .inr rfl⟩
  · have digit : startsWithDigit (c :: rest) = true := by
      simpa [startsNumber, startsWithDigit, signed] using begins
    exact ⟨[], c :: rest, by simp [minus, signed], digit, .inl rfl⟩

theorem minus_append_digits {s whole : List Char} (isSign : s = [] ∨ s = ['-'])
    (areDigits : Digits whole) (more : List Char) :
    minus (s ++ (whole ++ more)) = (s, whole ++ more) := by
  rcases isSign with rfl | rfl
  · exact minus_of_digits areDigits more
  · rfl

theorem number_of_noFurther {l : Lexeme} (begins : startsNumber c rest = true)
    (read : number (c :: rest) = .ok l) (further : NoFurther l.rest rest') :
    number (l.chars ++ rest') = .ok ⟨.number, l.chars, rest'⟩ := by
  obtain ⟨s, unsigned, behindSign, digit, isSign⟩ := exists_minus begins
  simp only [number, behindSign] at read
  split at read
  · cases read
  · rename_i alone
    cases read
    have isWhole := isWhole_of_digits digit alone
    have behindPower := steady_exponent _ _ further
    have further := further.append (exponent (fraction (digits unsigned).2).2).1
    rw [exponent_append] at further
    have behindFraction := steady_fraction _ _ further
    have further := further.append (fraction (digits unsigned).2).1
    rw [fraction_append] at further
    have behindWhole := steady_digits _ _ further
    have noZero := digitBehindZero_eq isWhole (further.noDigit (noDigit_digits unsigned))
    have behindSign := minus_append_digits isSign isWhole.1
    simp only [List.append_assoc, number, behindSign, noZero, behindWhole, behindFraction, behindPower]

theorem startsNumber_of_read {l : Lexeme} {tail : List Char} (begins : startsNumber c rest = true)
    (read : number (c :: rest) = .ok l) (chars : l.chars = c :: tail) (more : List Char) :
    startsNumber c (tail ++ more) = true := by
  by_cases digit : c.isDigit = true
  · simp [startsNumber, digit]
  · obtain ⟨_, ⟨negative, d, isNumber⟩, _⟩ := exists_isNumber_of_read begins read
    rw [chars] at isNumber
    cases isNumber with
    | positive magnitude =>
      obtain ⟨_, _, same, isDigit⟩ := magnitude.exists_cons
      cases same
      exact absurd isDigit digit
    | negative magnitude =>
      obtain ⟨d, digits, rfl, isDigit⟩ := magnitude.exists_cons
      simp [startsNumber, startsWithDigit, isDigit]

theorem exists_tail {l : Lexeme} (read : first afterDot c rest = .ok l) :
    ∃ tail, l.source = c :: tail := by
  have whole := first_source read
  have filled := first_source_ne_nil read
  cases source : l.source with
  | nil => exact absurd source filled
  | cons d tail =>
    rw [source] at whole
    cases whole
    exact ⟨tail, rfl⟩

theorem first_of_noFurther {l : Lexeme} {tail : List Char} (read : first afterDot c rest = .ok l)
    (source : l.source = c :: tail) (further : NoFurther l.rest rest') :
    first afterDot c (tail ++ rest') = .ok ⟨l.kind, l.chars, rest'⟩ := by
  cases first_cases afterDot c rest with
  | mark isMark reads =>
    cases reads.symm.trans read
    rw [Lexeme.source, sourceOf, if_neg (kind_of_punctuation isMark).2.2] at source
    cases source
    exact first_mark isMark
  | string quote reads =>
    obtain ⟨isString, noQuote⟩ := unquoted_of_string (reads.symm.trans read)
    rw [Lexeme.source, isString] at source
    have same : tail = l.chars ++ ['"'] := (List.cons.inj source).2.symm
    rw [quote, same, List.append_assoc, isString]
    exact first_string noQuote
  | member behindDot inWord reads =>
    cases reads.symm.trans read
    have run := steady_word _ _ further
    change (word (c :: rest)).1 = _ at source
    rw [source] at run ⊢
    rw [behindDot]
    exact first_member inWord run
  | number notMember begins reads =>
    have readNumber := reads.symm.trans read
    obtain ⟨isNumber, _⟩ := exists_isNumber_of_read begins readNumber
    rw [Lexeme.source, isNumber] at source
    change l.chars = _ at source
    have again := number_of_noFurther begins readNumber further
    rw [source] at again
    rw [first_number notMember (startsNumber_of_read begins readNumber source rest'), isNumber, source]
    exact again
  | word notBehindDot begins reads =>
    cases reads.symm.trans read
    have run := steady_word _ _ further
    rw [Lexeme.source, sourceOf, if_neg (ofWord_ne rfl _)] at source
    change (word (c :: rest)).1 = _ at source
    simp only [source] at run ⊢
    rw [notBehindDot]
    exact first_word begins run
  | nothing _ _ _ _ _ reads => cases reads.symm.trans read

/-- A character with which no token begins, but for a minus sign before a digit. -/
structure Foreign (afterDot : Bool) (c : Char) : Prop where
  mark : TokenKind.ofPunctuation? c = none
  notQuote : c ≠ '"'
  notMember : (afterDot && isIdentifierChar c) = false
  notDigit : c.isDigit = false
  notStart : isIdentifierStart c = false

/-- No token begins with `skipped ++ d :: more`, and `d` is to blame. -/
inductive Unexpected (afterDot : Bool) : (skipped : List Char) → (d : Char) → (more : List Char) → Prop
  | here {d : Char} {more : List Char} (foreign : Foreign afterDot d)
      (alone : d = '-' → startsWithDigit more = false) : Unexpected afterDot [] d more
  | behindZero {s more : List Char} {d : Char} (isSign : s = [] ∧ afterDot = false ∨ s = ['-'])
      (digit : d.isDigit = true) : Unexpected afterDot (s ++ ['0']) d more

theorem string_eq_error_iff {fault : Fault} :
    string text = .error fault ↔ '"' ∉ text ∧ fault = .unterminatedString := by
  constructor
  · intro failed
    unfold string at failed
    split at failed
    · rename_i nothing
      cases failed
      refine ⟨fun quote => ?_, rfl⟩
      have passed := List.dropWhile_eq_nil_iff.1 nothing '"' quote
      exact absurd passed (by decide)
    · cases failed
  · rintro ⟨noQuote, rfl⟩
    have nothing : text.dropWhile (· != '"') = [] := by
      rw [List.dropWhile_eq_nil_iff]
      intro d member
      rw [bne_iff_ne]
      rintro rfl
      exact noQuote member
    simp only [string, nothing]

theorem exists_split_of_digitBehindZero (behindZero : digitBehindZero? text = some d) :
    ∃ more, text = '0' :: d :: more ∧ d.isDigit = true := by
  unfold digitBehindZero? at behindZero
  split at behindZero
  · split at behindZero
    · rename_i digit
      cases behindZero
      exact ⟨_, rfl, digit⟩
    · cases behindZero
  · cases behindZero

theorem unexpected_of_number {skipped : List Char} (begins : startsNumber c rest = true)
    (notMember : (afterDot && isIdentifierChar c) = false)
    (failed : number (c :: rest) = .error (.unexpectedCharacter skipped d)) :
    ∃ more, c :: rest = skipped ++ d :: more ∧ Unexpected afterDot skipped d more := by
  obtain ⟨s, unsigned, behindSign, _, isSign⟩ := exists_minus begins
  have whole := minus_append (c :: rest)
  simp only [behindSign] at whole
  simp only [number, behindSign] at failed
  split at failed
  · rename_i behindZero
    cases failed
    obtain ⟨more, rfl, digit⟩ := exists_split_of_digitBehindZero behindZero
    refine ⟨more, by simp [← whole], .behindZero ?_ digit⟩
    rcases isSign with rfl | signed
    · cases whole
      have inWord := isIdentifierChar_of_isDigit (rfl : Char.isDigit '0' = true)
      rw [inWord, Bool.and_true] at notMember
      exact .inl ⟨rfl, notMember⟩
    · exact .inr signed
  · cases failed

theorem unexpected_of_first {skipped : List Char}
    (failed : first afterDot c rest = .error (.unexpectedCharacter skipped d)) :
    ∃ more, c :: rest = skipped ++ d :: more ∧ Unexpected afterDot skipped d more := by
  cases first_cases afterDot c rest with
  | mark _ reads | member _ _ reads | word _ _ reads => cases reads.symm.trans failed
  | string _ reads => cases (string_eq_error_iff.1 (reads.symm.trans failed)).2
  | number notMember begins reads =>
    exact unexpected_of_number begins notMember (reads.symm.trans failed)
  | nothing noMark notQuote notMember notNumber notStart reads =>
    cases reads.symm.trans failed
    simp only [startsNumber, Bool.or_eq_false_iff, Bool.and_eq_false_imp, beq_iff_eq] at notNumber
    exact ⟨rest, rfl, .here ⟨noMark, notQuote, notMember, notNumber.1, notStart⟩ notNumber.2⟩

variable {more more' skipped : List Char}

theorem first_foreign (foreign : Foreign afterDot d) (alone : d = '-' → startsWithDigit more = false) :
    first afterDot d more = .error (.unexpectedCharacter [] d) := by
  obtain ⟨mark, notQuote, notMember, notDigit, notStart⟩ := foreign
  have notNumber : startsNumber d more = false := by
    by_cases minus : d = '-'
    · simp [startsNumber, notDigit, alone minus]
    · simp [startsNumber, notDigit, minus]
  simp [first, mark, notQuote, notMember, notNumber, notStart]

theorem first_of_unexpected (unexpected : Unexpected afterDot skipped d more)
    (whole : c :: rest = skipped ++ d :: more) :
    first afterDot c rest = .error (.unexpectedCharacter skipped d) := by
  cases unexpected with
  | here foreign alone =>
    cases whole
    exact first_foreign foreign alone
  | behindZero isSign digit =>
    rcases isSign with ⟨rfl, rfl⟩ | rfl
    · cases whole
      simp [first_digit, number, minus, digitBehindZero?, digit]
    · cases whole
      change first afterDot '-' ('0' :: d :: more) = _
      rw [first_minus rfl]
      simp [number, minus, digitBehindZero?, digit]

theorem Unexpected.noFurther (unexpected : Unexpected afterDot skipped d more)
    (further : NoFurther (d :: more) (d :: more')) : Unexpected afterDot skipped d more' := by
  cases unexpected with
  | behindZero isSign digit => exact .behindZero isSign digit
  | here foreign alone =>
    refine .here foreign fun minus => ?_
    subst minus
    exact further.signed (alone rfl)

theorem Unexpected.outside (unexpected : Unexpected afterDot skipped d more) :
    d ≠ '.' ∧ ¬(d = 'e' ∨ d = 'E') := by
  cases unexpected with
  | here foreign =>
    refine ⟨?_, ?_⟩
    · rintro rfl
      cases foreign.mark
    · rintro (rfl | rfl)
      · exact absurd foreign.notStart (by decide)
      · exact absurd foreign.notStart (by decide)
  | behindZero _ digit =>
    refine ⟨?_, ?_⟩
    · rintro rfl
      cases digit
    · rintro (rfl | rfl) <;> cases digit

theorem first_eq_unterminated_iff :
    first afterDot c rest = .error .unterminatedString ↔ c = '"' ∧ '"' ∉ rest := by
  constructor
  · intro failed
    cases first_cases afterDot c rest with
    | mark _ reads | member _ _ reads | word _ _ reads | nothing _ _ _ _ _ reads =>
      cases reads.symm.trans failed
    | string quote reads =>
      exact ⟨quote, (string_eq_error_iff.1 (reads.symm.trans failed)).1⟩
    | number _ _ reads =>
      have failedNumber := reads.symm.trans failed
      unfold number at failedNumber
      split at failedNumber <;> cases failedNumber
  · rintro ⟨rfl, noQuote⟩
    have failed : string rest = .error .unterminatedString := string_eq_error_iff.2 ⟨noQuote, rfl⟩
    simp [first, TokenKind.ofPunctuation?, failed]

end Bindlang.Lexeme
