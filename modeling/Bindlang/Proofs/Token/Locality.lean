import Bindlang.Proofs.Token.Lookahead

namespace Bindlang

namespace Lexeme

open Text NumberText

/-- Nothing before goes on with this text, even where a number needs two characters more. -/
structure Cut (more : List Char) : Prop where
  apart : Apart more
  unmarked : ∀ c ∈ more.head?, c ≠ '.' ∧ c ≠ '+' ∧ c ≠ '-'

theorem cut_mark {c : Char} {kind : TokenKind} (isMark : IsMark c kind) (notDot : kind ≠ .dot)
    (more : List Char) : Cut (c :: more) := by
  refine ⟨(behindValue_mark isMark notDot more).1, ?_⟩
  intro d first
  cases first
  refine ⟨?_, ?_, ?_⟩
  · rintro rfl
    cases isMark
    exact notDot rfl
  · rintro rfl
    cases isMark
  · rintro rfl
    cases isMark

variable {more : List Char}

theorem noFurther_of_cut (cut : Cut more) : NoFurther [] more := by
  cases more with
  | nil => exact noFurther_nil []
  | cons c more =>
    have notInWord := cut.apart c rfl
    obtain ⟨noPoint, noPlus, noMinus⟩ := cut.unmarked c rfl
    have stops : Stops (c :: more) :=
      stops_of_ends ⟨cut.apart, fun point => noPoint (Option.some.inj point)⟩
    have noDigit : startsWithDigit (c :: more) = false := noDigit_iff.1 stops.noDigit
    have noLetter : ¬(c = 'e' ∨ c = 'E') := by
      rintro (rfl | rfl)
      · exact absurd notInWord (by decide)
      · exact absurd notInWord (by decide)
    refine ⟨fun _ => cut.apart, fun _ => noDigit, fun _ => ?_, fun _ => ?_, fun _ => ?_⟩
    · rwa [sign_cons noPlus noMinus]
    · rw [fraction_cons noPoint]
    · rw [exponent_cons noLetter]

end Lexeme

namespace Token

open Lexeme

variable {afterDot : Bool} {c : Char} {p : Position} {text before more rest : List Char}
  {ts : List Token} {e : LexError}

def endsInDot : Bool → List Token → Bool
  | afterDot, [] => afterDot
  | _, t :: ts => endsInDot (t.kind == .dot) ts

theorem scanFrom_first {l : Lexeme} (visible : Text.isWhitespace c = false)
    (read : first afterDot c rest = .ok l) :
    scanFrom afterDot p (c :: rest) = (scanFrom (l.kind == .dot) (p.after l.source) l.rest).map
      (⟨l.kind, .ofList l.chars, p⟩ :: ·) := by
  have here : skipBlank p (c :: rest) = (p, c :: rest) := by simp [skipBlank, visible]
  rw [scanFrom_eq, here]
  simp only [read]

theorem scanFrom_fault {fault : Fault} (visible : Text.isWhitespace c = false)
    (failed : first afterDot c rest = .error fault) :
    scanFrom afterDot p (c :: rest) = .error (.ofFault p fault) := by
  have here : skipBlank p (c :: rest) = (p, c :: rest) := by simp [skipBlank, visible]
  rw [scanFrom_eq, here]
  simp only [failed]

/-- Exactly `before` is read, whatever stands in the place of `rest` that goes no further. -/
def ReadsUpTo (afterDot : Bool) (p : Position) (before rest : List Char) (ts : List Token) : Prop :=
  ∀ rest', NoFurther rest rest' → scanFrom afterDot p (before ++ rest') =
    (scanFrom (endsInDot afterDot ts) (p.after before) rest').map (ts ++ ·)

/-- The lexer has nothing more to read, or fails at once. -/
inductive Halts (afterDot : Bool) : List Char → Prop
  | nothing : Halts afterDot []
  | fault {c : Char} {rest : List Char} {fault : Fault} (visible : Text.isWhitespace c = false)
      (failed : first afterDot c rest = .error fault) : Halts afterDot (c :: rest)

theorem visible_of_skipBlank (begins : (skipBlank p text).2 = c :: rest) :
    Text.isWhitespace c = false := by
  apply List.stopped_of_dropWhile Text.isWhitespace text
  change (skipBlank p text).2.head? = some c
  rw [begins, List.head?_cons]

theorem readsUpTo_blank {blank : List Char} (isBlank : Blank blank) (rest : List Char) :
    ReadsUpTo afterDot p blank rest [] := by
  intro rest' _
  rw [scanFrom_blank isBlank]
  change _ = (scanFrom afterDot (p.after blank) rest').map id
  cases scanFrom afterDot (p.after blank) rest' <;> rfl

theorem exists_readsUpTo (afterDot : Bool) (p : Position) (text : List Char) :
    ∃ before rest ts, text = before ++ rest ∧ ReadsUpTo afterDot p before rest ts ∧
      Halts (endsInDot afterDot ts) rest := by
  fun_induction scanFrom afterDot p text with
  | case1 afterDot p text nothing =>
    have isBlank := blank_of_skipBlank nothing
    exact ⟨text, [], [], (List.append_nil text).symm, readsUpTo_blank isBlank [], .nothing⟩
  | case2 afterDot p text c rest begins here fault failed =>
    have parts := takeWhile_append_skipBlank p text
    rw [begins] at parts
    exact ⟨_, _, [], parts.symm, readsUpTo_blank (blank_takeWhile text) _,
      .fault (visible_of_skipBlank begins) failed⟩
  | case3 afterDot p text c rest begins here l read shorter ih =>
    obtain ⟨before, behind, ts, whole, reads, halts⟩ := ih
    have parts := takeWhile_append_skipBlank p text
    have visible := visible_of_skipBlank begins
    obtain ⟨tail, source⟩ := exists_tail read
    refine ⟨text.takeWhile Text.isWhitespace ++ (l.source ++ before), behind,
      ⟨l.kind, .ofList l.chars, here⟩ :: ts, ?_, ?_, halts⟩
    · rw [List.append_assoc, List.append_assoc, ← whole, first_source read, ← begins, parts]
    · intro rest' further
      have readMore := first_of_noFurther read source (whole ▸ further.append before)
      have there : (here.after l.source).after before =
          p.after (text.takeWhile Text.isWhitespace ++ (l.source ++ before)) := by
        rw [Position.after_append, Position.after_append]
        rfl
      -- One token is read where it stands; the induction has the text behind it.
      calc
        scanFrom afterDot p (text.takeWhile Text.isWhitespace ++ (l.source ++ before) ++ rest')
        _ = scanFrom afterDot here (c :: (tail ++ (before ++ rest'))) := by
          rw [List.append_assoc, scanFrom_blank (blank_takeWhile text), source, List.append_assoc]
          rfl
        _ = (scanFrom (l.kind == .dot) (here.after l.source) (before ++ rest')).map
            (⟨l.kind, .ofList l.chars, here⟩ :: ·) := scanFrom_first visible readMore
        _ = _ := by
          rw [reads rest' further, there]
          exact map_map _ [⟨l.kind, .ofList l.chars, here⟩] ts

theorem ReadsUpTo.scanned (reads : ReadsUpTo afterDot p before rest ts) :
    scanFrom afterDot p before = .ok ts := by
  have alone := reads [] (noFurther_nil rest)
  rw [List.append_nil, scanFrom_nil] at alone
  rw [alone]
  exact congrArg Except.ok (List.append_nil ts)

theorem ReadsUpTo.fails {rest' : List Char} {fault : Fault}
    (reads : ReadsUpTo afterDot p before rest ts) (further : NoFurther rest (c :: rest'))
    (visible : Text.isWhitespace c = false)
    (failed : first (endsInDot afterDot ts) c rest' = .error fault) :
    scanFrom afterDot p (before ++ c :: rest') = .error (.ofFault (p.after before) fault) := by
  rw [reads _ further, scanFrom_fault visible failed]
  rfl

theorem scanFrom_append (cut : Cut more) (scanned : scanFrom afterDot p text = .ok ts) :
    scanFrom afterDot p (text ++ more) =
      (scanFrom (endsInDot afterDot ts) (p.after text) more).map (ts ++ ·) := by
  obtain ⟨before, rest, us, rfl, reads, halts⟩ := exists_readsUpTo afterDot p text
  cases halts with
  | nothing =>
    rw [List.append_nil] at scanned ⊢
    rw [reads.scanned] at scanned
    cases scanned
    exact reads more (noFurther_of_cut cut)
  | fault visible failed =>
    rw [reads.fails (noFurther_refl _) visible failed] at scanned
    cases scanned

theorem exists_fault_of_scanFrom (failed : scanFrom afterDot p text = .error e) :
    ∃ before c rest fault ts, text = before ++ c :: rest ∧ e = .ofFault (p.after before) fault ∧
      ReadsUpTo afterDot p before (c :: rest) ts ∧ Text.isWhitespace c = false ∧
      first (endsInDot afterDot ts) c rest = .error fault := by
  obtain ⟨before, rest, ts, rfl, reads, halts⟩ := exists_readsUpTo afterDot p text
  cases halts with
  | nothing =>
    rw [List.append_nil, reads.scanned] at failed
    cases failed
  | @fault c rest fault visible faulty =>
    rw [reads.fails (noFurther_refl _) visible faulty] at failed
    exact ⟨before, c, rest, fault, ts, rfl, (Except.error.inj failed).symm, reads, visible, faulty⟩

end Token

end Bindlang
