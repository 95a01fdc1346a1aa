import Bindlang.BindingSet
import Bindlang.Proofs.Printer.TreeExpressions

namespace Bindlang

open Lexeme Grammar Token

variable {name : String} {text : List Char} {e : Expression}

theorem scan_of_lexes {Holds : List Token → Prop} {afterDot : Bool}
    (lexes : Lexes false text afterDot BehindValue Holds) :
    ∃ tokens, Holds tokens ∧ scan (.ofList text) = .ok tokens := by
  obtain ⟨tokens, p, holds, scanned⟩ := lexes .start [] behindValue_nil
  refine ⟨tokens, holds, ?_⟩
  rw [List.append_nil, scanFrom_nil, Except.map, List.append_nil] at scanned
  rw [scan, String.toList_ofList, scanned]

theorem readBindings_of_lexes (rules : Rules) (isIdentifier : IsIdentifier name)
    (lexes : Lexes false text false BehindValue (IsValue · e)) (room : e.depth ≤ rules.maxDepth) :
    ∃ position, readBindings rules (.ofList (name.toList ++ ':' :: ' ' :: text)) =
      .ok [⟨name, e, position⟩] := by
  obtain ⟨tokens, ⟨position, binding⟩, scanned⟩ :=
    scan_of_lexes (lexes_named isIdentifier lexes .start)
  have parsed : parse rules tokens = .ok [⟨name, e, position⟩] := by
    apply Parser.parse_of_distinct (.some (.one binding))
    · simpa using room
    · simp
  refine ⟨position, (readBindings_of_scan rules scanned).trans ?_⟩
  rw [parsed]
  rfl

theorem Options.bind_of_lexes (options : Options) (isIdentifier : IsIdentifier name)
    (lexes : Lexes false text false BehindValue (IsValue · e))
    (room : e.depth ≤ options.rules.maxDepth) (scope : Scope) :
    ∃ set, options.bind (.ofList (name.toList ++ ':' :: ' ' :: text)) scope = .ok set ∧
      set.accessors.entries = [(name, .expression e scope)] := by
  obtain ⟨position, read⟩ := readBindings_of_lexes options.rules isIdentifier lexes room
  refine ⟨.ofBindings [⟨name, e, position⟩] scope, ?_, rfl⟩
  rw [Options.bind, bindings, read]
  rfl

theorem isIdentifier_a : IsIdentifier "a" :=
  ⟨by decide +kernel, by decide +kernel, by decide⟩

theorem label_append (text : List Char) :
    "a: " ++ String.ofList text = .ofList ("a".toList ++ ':' :: ' ' :: text) := by
  rw [← String.toList_inj]
  simp

end Bindlang
