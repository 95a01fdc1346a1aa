import Bindlang.Proofs.Parser.MovedText
import Bindlang.Proofs.Token.ExactErrors

namespace Bindlang

namespace Lexeme

theorem cut_blank {blank : List Char} (isBlank : Token.Blank blank) (filled : blank ≠ [])
    (more : List Char) : Cut (blank ++ more) := by
  refine ⟨(behindValue_blank isBlank fun empty => absurd empty filled).1, ?_⟩
  intro c first
  have inBlank : c ∈ blank := by
    rw [List.head?_append_of_ne_nil blank filled] at first
    exact List.mem_of_mem_head? first
  have isWhite := isBlank c inBlank
  refine ⟨?_, ?_, ?_⟩
  · rintro rfl
    cases isWhite
  · rintro rfl
    cases isWhite
  · rintro rfl
    cases isWhite

end Lexeme

namespace Token

open Lexeme

variable {afterDot : Bool} {ts : List Token}

theorem endsInDot_concat (ts : List Token) (last : Token) :
    endsInDot afterDot (ts ++ [last]) = (last.kind == .dot) := by
  induction ts generalizing afterDot with
  | nil => rfl
  | cons t ts ih => exact ih

theorem endsInDot_eq_false (noDot : ∀ t ∈ ts.getLast?, t.kind ≠ .dot) : endsInDot false ts = false := by
  rcases List.eq_nil_or_concat' ts with rfl | ⟨front, last, rfl⟩
  · rfl
  · rw [endsInDot_concat]
    exact beq_false_of_ne (noDot last (by simp))

/-- The tokens of the second text, or its error, follow those of the first, moved behind it. -/
theorem scan_separated (first second : String) {blank : String} (isBlank : Blank blank.toList)
    (filled : blank ≠ "") :
    let move := Position.behind (first.toList ++ blank.toList)
    (∀ ts, scan first = .ok ts → (∀ t ∈ ts.getLast?, t.kind ≠ .dot) →
      scan (first ++ blank ++ second) =
        ((scan second).map fun us => ts ++ us.map (Token.moved move)).mapError (LexError.moved move)) ∧
    ∀ c p, scan first = .error (.unexpectedCharacter c p) →
      scan (first ++ blank ++ second) = .error (.unexpectedCharacter c p) := by
  intro move
  have notEmpty : blank.toList ≠ [] := by simpa using filled
  have cut := cut_blank isBlank notEmpty second.toList
  have joined : scan (first ++ blank ++ second) =
      scanFrom false .start (first.toList ++ (blank.toList ++ second.toList)) := by
    rw [scan, String.toList_append, String.toList_append, List.append_assoc]
  constructor
  · intro ts scanned noDot
    have alone := scan_behind (first.toList ++ blank.toList) second
    rw [Position.after_append] at alone
    have behind : Corresponds (LexError.moved move)
        (fun us all => all = ts ++ us.map (Token.moved move))
        (scan second) (scan (first ++ blank ++ second)) := by
      rw [joined, scanFrom_append cut scanned, endsInDot_eq_false noDot, scanFrom_blank isBlank]
      apply alone.map_right
      intro us all moved
      rw [moved]
    exact behind.eq_map
  · intro c p failed
    obtain ⟨before, more, whole, _, _, _, fails⟩ := exists_unexpected failed
    have further := (noFurther_of_cut cut).append (c :: more)
    rw [List.append_nil] at further
    have failsAgain := fails (more ++ (blank.toList ++ second.toList)) further
    rw [joined, whole, List.append_assoc]
    exact failsAgain

theorem scan_separated_by_lines :
    scan "a.1: 2 \n b:\n 3" =
      .ok [⟨.identifier, "a", ⟨1, 1, 0⟩⟩, ⟨.dot, ".", ⟨1, 2, 1⟩⟩, ⟨.identifier, "1", ⟨1, 3, 2⟩⟩,
        ⟨.colon, ":", ⟨1, 4, 3⟩⟩, ⟨.number, "2", ⟨1, 6, 5⟩⟩, ⟨.identifier, "b", ⟨2, 2, 9⟩⟩,
        ⟨.colon, ":", ⟨2, 3, 10⟩⟩, ⟨.number, "3", ⟨3, 2, 13⟩⟩] ∧
      scan "a.1: 2 \n b\n \"" = .error (.unterminatedString ⟨3, 2, 12⟩) ∧
      scan "a: - \n 5" = .error (.unexpectedCharacter '-' ⟨1, 4, 3⟩) := by
  have isBlank : Blank " \n ".toList := List.all_eq_true.1 (by decide +kernel)
  have read : scan "a.1: 2" =
      .ok [⟨.identifier, "a", ⟨1, 1, 0⟩⟩, ⟨.dot, ".", ⟨1, 2, 1⟩⟩, ⟨.identifier, "1", ⟨1, 3, 2⟩⟩,
        ⟨.colon, ":", ⟨1, 4, 3⟩⟩, ⟨.number, "2", ⟨1, 6, 5⟩⟩] := by decide +kernel
  have behind : scan "b:\n 3" =
      .ok [⟨.identifier, "b", ⟨1, 1, 0⟩⟩, ⟨.colon, ":", ⟨1, 2, 1⟩⟩, ⟨.number, "3", ⟨2, 2, 4⟩⟩] := by
    decide +kernel
  have opened : scan "b\n \"" = .error (.unterminatedString ⟨2, 2, 3⟩) := by decide +kernel
  have alone : scan "a: -" = .error (.unexpectedCharacter '-' ⟨1, 4, 3⟩) := by decide +kernel
  have whole := (scan_separated "a.1: 2" "b:\n 3" isBlank (by decide)).1 _ read (by decide)
  have failed := (scan_separated "a.1: 2" "b\n \"" isBlank (by decide)).1 _ read (by decide)
  have failedBefore := (scan_separated "a: -" "5" isBlank (by decide)).2 _ _ alone
  rw [behind] at whole
  rw [opened] at failed
  exact ⟨whole, failed, failedBefore⟩

end Token

end Bindlang
