import Bindlang.Proofs.Parser.DuplicatePolicies
import Bindlang.Proofs.Parser.MovedText
import Bindlang.Proofs.Token.Locality

namespace Bindlang

namespace Token

open Lexeme

theorem scan_blank {text : String} (blank : Blank text.toList) : scan text = .ok [] := by
  have whole : scanFrom false .start (text.toList ++ []) = scanFrom false _ [] :=
    scanFrom_blank blank
  rwa [List.append_nil, scanFrom_nil] at whole

theorem scan_comma {first : String} {ts : List Token} (scanned : scan first = .ok ts)
    (second : String) :
    ∃ comma, comma.kind = .comma ∧
      Corresponds (LexError.moved (.behind (first.toList ++ [','])))
        (fun us all => all = ts ++ comma :: us.map (Token.moved (.behind (first.toList ++ [',']))))
        (scan second) (scan (first ++ "," ++ second)) := by
  let p := Position.start.after first.toList
  have isComma : Text.IsMark ',' .comma := rfl
  have cut : Cut (',' :: second.toList) := cut_mark isComma (by decide) second.toList
  have visible : Text.isWhitespace ',' = false := by decide +kernel
  have read : Lexeme.first (endsInDot false ts) ',' second.toList =
      .ok ⟨.comma, [','], second.toList⟩ := first_mark isComma
  have joined : scan (first ++ "," ++ second) =
      (scanFrom false (p.after [',']) second.toList).map (ts ++ ⟨.comma, ",", p⟩ :: ·) := by
    rw [scan, String.toList_append, String.toList_append, List.append_assoc]
    refine (scanFrom_append cut scanned).trans ?_
    rw [scanFrom_first visible read]
    exact map_map (scanFrom false (p.after [',']) second.toList) ts [⟨.comma, ",", p⟩] |>.trans
      (by simp)
  have behind := scan_behind (first.toList ++ [',']) second
  rw [Position.after_append] at behind
  refine ⟨⟨.comma, ",", p⟩, rfl, ?_⟩
  rw [joined]
  apply behind.map_right
  intro us all moved
  rw [moved]

end Token

namespace Parser

open Grammar

variable {rules : Rules} {kept : List Binding} {hole : Hole} {value : Expression} {s : State}
  {ts us : List Token} {comma : Token} {maxDepth : Nat} {move : Position → Position}

theorem eq_of_complete (completed : complete rules.duplicates kept hole value = .ok s)
    {bindings : List Binding} (done : finish rules.duplicates s = .ok bindings) :
    s = behindBinding bindings := by
  obtain ⟨⟨more, separator⟩, _, rfl⟩ := Except.map_eq_ok_iff.1 completed
  cases separator with
  | binding =>
    cases done
    rfl
  | element | entry => cases done

theorem settle_of_finish (done : finish rules.duplicates s = .ok kept) :
    settle rules.duplicates s = .ok (behindBinding kept) := by
  obtain ⟨s', settled, done'⟩ := Except.bind_eq_ok_iff.1 ((finish_eq_settle rules.duplicates s) ▸ done)
  obtain ⟨bindings, awaiting⟩ := s
  cases awaiting with
  | nameEnd | pathEnd => rw [settled, eq_of_complete settled done']
  | separator separator =>
    cases separator with
    | binding =>
      cases done
      rfl
    | element | entry => cases done
  | _ => cases done

theorem parse_comma (accepted : parse rules ts = .ok kept) (filled : kept ≠ [])
    (isComma : comma.kind = .comma) :
    parse rules (ts ++ comma :: us) =
      run rules ⟨kept, .bindingName⟩ us >>= finish rules.duplicates := by
  unfold parse at accepted
  split at accepted
  · cases accepted
    exact absurd rfl filled
  · obtain ⟨s, ran, done⟩ := Except.bind_eq_ok_iff.1 accepted
    have next : step rules (behindBinding kept) comma = .ok ⟨kept, .bindingName⟩ := by
      simp [step, separate, behindBinding, isComma]
    rw [parse, if_neg (by simp), run_append_cons (.of_kind isComma (by decide) (by decide)), ran,
      Except.ok_bind, settle_of_finish done, Except.ok_bind, run_cons, next, Except.ok_bind]

/-- The bindings of a text, and those of all text up to its end when `kept` come before. -/
structure Joined (kept : List Binding) (move : Position → Position) (own all : List Binding) :
    Prop where
  distinct : (own.map Binding.name).Nodup
  eq : all = Keyed.putAll Binding.name kept (own.map (Binding.moved move))

theorem joined_nil (kept : List Binding) (move : Position → Position) : Joined kept move [] kept :=
  ⟨List.nodup_nil, rfl⟩

theorem names_moved (move : Position → Position) (bindings : List Binding) :
    (bindings.map (Binding.moved move)).map Binding.name = bindings.map Binding.name := by
  rw [List.map_map]
  rfl

theorem adds_joined (kept : List Binding) (move : Position → Position) :
    AddsInStep move (Joined kept move) .lastWins := by
  intro own all b joined
  rw [add_lastWins, add_lastWins]
  refine .ok ⟨Keyed.nodup_put Binding.name joined.distinct, ?_⟩
  have distinct : ((own.map (Binding.moved move)).map Binding.name).Nodup := by
    rw [names_moved]
    exact joined.distinct
  have sameName : ∀ b, (Binding.moved move b).name = b.name := fun _ => rfl
  -- Putting what was put already is putting one by one, since each name is there once.
  have put : (Keyed.put Binding.name b own).map (Binding.moved move) =
      Keyed.put Binding.name (b.moved move) (own.map (Binding.moved move)) :=
    Keyed.map_put sameName b own
  rw [put, Keyed.putAll_put distinct, joined.eq]

theorem parse_joined (accepted : parse ⟨.lastWins, maxDepth⟩ ts = .ok kept) (filled : kept ≠ [])
    (isComma : comma.kind = .comma) (more : us ≠ []) :
    Corresponds (ParseError.moved move) (Joined kept move) (parse ⟨.lastWins, maxDepth⟩ us)
      (parse ⟨.lastWins, maxDepth⟩ (ts ++ comma :: us.map (Token.moved move))) := by
  have adds : AddsInStep move (Joined kept move) (Rules.mk .lastWins maxDepth).duplicates :=
    adds_joined kept move
  rw [parse_comma accepted filled isComma, parse, if_neg more]
  apply (inStep_run adds ⟨joined_nil kept move, rfl⟩ us).bind
  intro s s' together
  exact inStep_finish adds together

theorem foldlM_add_reject_iff {raw all : List Binding} :
    raw.foldlM (add .reject) [] = .ok all ↔ (raw.map Binding.name).Nodup ∧ all = raw := by
  constructor
  · intro added
    by_cases distinct : (raw.map Binding.name).Nodup
    · have whole : raw.foldlM (add .reject) [] = .ok raw :=
        foldlM_add_of_distinct .reject distinct
      rw [whole] at added
      exact ⟨distinct, (Except.ok.inj added).symm⟩
    · obtain ⟨b, _, refused⟩ := isFirstRepeated_of_foldlM distinct
      rw [refused] at added
      cases added
  · rintro ⟨distinct, rfl⟩
    exact foldlM_add_of_distinct .reject distinct

theorem parse_of_fits (rules : Rules) {raw : List Binding}
    (isBindings : CommaList (BindingFits rules.maxDepth) ts raw) :
    parse rules ts = raw.foldlM (add rules.duplicates) [] := by
  have room : ∀ ts b, BindingFits rules.maxDepth ts b → b.value.depth ≤ rules.maxDepth :=
    fun _ _ => And.right
  exact parse_of_isBindings (isBindings.imp fun _ _ => And.left) (isBindings.forall_mem room)

theorem parse_reject_iff {all : List Binding} :
    parse ⟨.reject, maxDepth⟩ ts = .ok all ↔
      CommaList (BindingFits maxDepth) ts all ∧ (all.map Binding.name).Nodup := by
  constructor
  · intro accepted
    obtain ⟨raw, isBindings, added⟩ := isBindings_of_parse accepted
    obtain ⟨distinct, rfl⟩ := foldlM_add_reject_iff.1 added
    exact ⟨isBindings, distinct⟩
  · rintro ⟨isBindings, distinct⟩
    rw [parse_of_fits ⟨.reject, maxDepth⟩ isBindings]
    exact foldlM_add_reject_iff.2 ⟨distinct, rfl⟩

theorem BindingFits.moved {b : Binding} (fits : BindingFits maxDepth ts b) :
    BindingFits maxDepth (ts.map (Token.moved move)) (b.moved move) :=
  ⟨fits.1.moved, fits.2⟩

theorem parse_reject_comma_iff (move : Position → Position) {more : List Binding}
    (accepted : parse ⟨.reject, maxDepth⟩ ts = .ok kept) (filled : kept ≠ [])
    (acceptedMore : parse ⟨.reject, maxDepth⟩ us = .ok more) (filledMore : more ≠ [])
    (isComma : comma.kind = .comma) :
    (∃ all, parse ⟨.reject, maxDepth⟩ (ts ++ comma :: us.map (Token.moved move)) = .ok all) ↔
      ∀ name ∈ kept.map Binding.name, name ∉ more.map Binding.name := by
  obtain ⟨isBindings, distinct⟩ := parse_reject_iff.1 accepted
  obtain ⟨areMore, distinctMore⟩ := parse_reject_iff.1 acceptedMore
  have whole : CommaList (BindingFits maxDepth) (ts ++ comma :: us.map (Token.moved move))
      (kept ++ more.map (Binding.moved move)) := by
    cases isBindings with
    | none => exact absurd rfl filled
    | some items =>
      cases areMore with
      | none => exact absurd rfl filledMore
      | some others =>
        have othersMoved := others.moved (f := Binding.moved move) fun _ _ => BindingFits.moved
        exact .some (items.append isComma othersMoved)
  have names : (kept ++ more.map (Binding.moved move)).map Binding.name =
      kept.map Binding.name ++ more.map Binding.name := by
    rw [List.map_append, names_moved]
  rw [parse_of_fits ⟨.reject, maxDepth⟩ whole]
  constructor
  · rintro ⟨all, added⟩
    obtain ⟨distinctAll, _⟩ := foldlM_add_reject_iff.1 added
    rw [names, List.nodup_append] at distinctAll
    exact fun name member again => distinctAll.2.2 name member name again rfl
  · intro apart
    refine ⟨_, foldlM_add_reject_iff.2 ⟨?_, rfl⟩⟩
    rw [names, List.nodup_append]
    refine ⟨distinct, distinctMore, ?_⟩
    rintro name member _ again rfl
    exact apart name member again

end Parser

variable {maxDepth : Nat} {rules : Rules} {first second : String} {kept more : List Binding}

theorem readBindings_nothing (scanned : Token.scan second = .ok []) :
    readBindings rules second = .ok [] :=
  readBindings_of_scan rules scanned

theorem readBindings_comma (accepted : readBindings ⟨.lastWins, maxDepth⟩ first = .ok kept)
    (filled : kept ≠ []) (something : Token.scan second ≠ .ok []) :
    Corresponds (SyntaxError.moved (.behind (first.toList ++ [','])))
      (Parser.Joined kept (.behind (first.toList ++ [','])))
      (readBindings ⟨.lastWins, maxDepth⟩ second)
      (readBindings ⟨.lastWins, maxDepth⟩ (first ++ "," ++ second)) := by
  obtain ⟨ts, scanned, parsed⟩ := exists_tokens_of_readBindings accepted
  obtain ⟨comma, isComma, corresponds⟩ := Token.scan_comma scanned second
  cases scannedSecond : Token.scan second with
  | error e =>
    rw [scannedSecond] at corresponds
    rw [readBindings, readBindings, scannedSecond, corresponds.eq_error]
    exact .error (SyntaxError.lexical e)
  | ok us =>
    rw [scannedSecond] at corresponds something
    obtain ⟨_, joined, rfl⟩ := corresponds.exists_ok
    rw [readBindings_of_scan _ scannedSecond, readBindings_of_scan _ joined]
    have filledSecond : us ≠ [] := fun nothing => something (congrArg _ nothing)
    exact (Parser.parse_joined parsed filled isComma filledSecond).mapError fun _ => rfl

theorem readBindings_comma_blank (accepted : readBindings rules first = .ok kept)
    (filled : kept ≠ []) (blank : Token.Blank second.toList) :
    readBindings rules (first ++ "," ++ second) =
      .error (.grammatical (.unexpectedEnd .bindingName)) := by
  obtain ⟨ts, scanned, parsed⟩ := exists_tokens_of_readBindings accepted
  obtain ⟨comma, isComma, corresponds⟩ := Token.scan_comma scanned second
  rw [Token.scan_blank blank] at corresponds
  obtain ⟨_, joined, rfl⟩ := corresponds.exists_ok
  rw [readBindings_of_scan rules joined, List.map_nil, Parser.parse_comma parsed filled isComma]
  rfl

theorem readBindings_reject_comma_iff
    (accepted : readBindings ⟨.reject, maxDepth⟩ first = .ok kept) (filled : kept ≠ [])
    (acceptedMore : readBindings ⟨.reject, maxDepth⟩ second = .ok more) (filledMore : more ≠ []) :
    (∃ all, readBindings ⟨.reject, maxDepth⟩ (first ++ "," ++ second) = .ok all) ↔
      ∀ name ∈ kept.map Binding.name, name ∉ more.map Binding.name := by
  obtain ⟨ts, scanned, parsed⟩ := exists_tokens_of_readBindings accepted
  obtain ⟨us, scannedSecond, parsedMore⟩ := exists_tokens_of_readBindings acceptedMore
  obtain ⟨comma, isComma, corresponds⟩ := Token.scan_comma scanned second
  rw [scannedSecond] at corresponds
  obtain ⟨_, joined, rfl⟩ := corresponds.exists_ok
  have parses := Parser.parse_reject_comma_iff (.behind (first.toList ++ [','])) parsed filled
    parsedMore filledMore isComma
  rw [readBindings_of_scan _ joined, ← parses]
  constructor
  · rintro ⟨all, taken⟩
    exact ⟨all, Except.mapError_eq_ok_iff.1 taken⟩
  · rintro ⟨all, taken⟩
    exact ⟨all, Except.mapError_eq_ok_iff.2 taken⟩

/-- The bindings of the second text, moved, are put among those of the first. -/
theorem readBindings_of_joined (maxDepth : Nat) (first second : String) (kept : List Binding)
    (filled : kept ≠ []) :
    let behind := Position.behind (first.toList ++ [','])
    (readBindings ⟨.lastWins, maxDepth⟩ first = .ok kept →
      (∀ more, readBindings ⟨.lastWins, maxDepth⟩ second = .ok more → more ≠ [] →
        readBindings ⟨.lastWins, maxDepth⟩ (first ++ "," ++ second) =
          .ok (Keyed.putAll Binding.name kept (more.map (Binding.moved behind)))) ∧
      (∀ e, readBindings ⟨.lastWins, maxDepth⟩ second = .error e →
        readBindings ⟨.lastWins, maxDepth⟩ (first ++ "," ++ second) = .error (e.moved behind)) ∧
      (Token.Blank second.toList →
        readBindings ⟨.lastWins, maxDepth⟩ (first ++ "," ++ second) =
          .error (.grammatical (.unexpectedEnd .bindingName)))) ∧
    (readBindings ⟨.reject, maxDepth⟩ first = .ok kept →
      ∀ more, readBindings ⟨.reject, maxDepth⟩ second = .ok more → more ≠ [] →
        ((∃ all, readBindings ⟨.reject, maxDepth⟩ (first ++ "," ++ second) = .ok all) ↔
          ∀ name ∈ kept.map Binding.name, name ∉ more.map Binding.name)) := by
  intro behind
  constructor
  · intro accepted
    refine ⟨?_, ?_, readBindings_comma_blank accepted filled⟩
    · intro more acceptedMore filledMore
      have something : Token.scan second ≠ .ok [] := by
        intro nothing
        rw [readBindings_nothing nothing] at acceptedMore
        exact filledMore (Except.ok.inj acceptedMore).symm
      have corresponds := readBindings_comma accepted filled something
      rw [acceptedMore] at corresponds
      obtain ⟨all, joined, together⟩ := corresponds.exists_ok
      rw [joined, together.eq]
    · intro e failed
      have something : Token.scan second ≠ .ok [] := by
        intro nothing
        rw [readBindings_nothing nothing] at failed
        cases failed
      have corresponds := readBindings_comma accepted filled something
      rw [failed] at corresponds
      exact corresponds.eq_error
  · intro accepted more acceptedMore filledMore
    exact readBindings_reject_comma_iff accepted filled acceptedMore filledMore

theorem name_comes_again_behind_comma :
    let kept : List Binding :=
      [⟨"a", .path [⟨"x", false⟩], ⟨1, 1, 0⟩⟩, ⟨"b", .literal .null, ⟨2, 1, 6⟩⟩]
    let more : List Binding :=
      [⟨"c", .array [], ⟨1, 1, 0⟩⟩, ⟨"a", .literal .undefined, ⟨1, 8, 7⟩⟩]
    let all : List Binding :=
      [⟨"a", .literal .undefined, ⟨2, 16, 21⟩⟩, ⟨"b", .literal .null, ⟨2, 1, 6⟩⟩,
        ⟨"c", .array [], ⟨2, 9, 14⟩⟩]
    kept ≠ [] ∧ readBindings ⟨.lastWins, 1⟩ "a: x,\nb: null" = .ok kept ∧
      readBindings ⟨.lastWins, 1⟩ "c: [], a: undefined" = .ok more ∧ more ≠ [] ∧
      readBindings ⟨.lastWins, 1⟩ ("a: x,\nb: null" ++ "," ++ "c: [], a: undefined") = .ok all := by
  intro kept more all
  have scanned : Token.scan "a: x,\nb: null" = .ok [⟨.identifier, "a", ⟨1, 1, 0⟩⟩,
      ⟨.colon, ":", ⟨1, 2, 1⟩⟩, ⟨.identifier, "x", ⟨1, 4, 3⟩⟩, ⟨.comma, ",", ⟨1, 5, 4⟩⟩,
      ⟨.identifier, "b", ⟨2, 1, 6⟩⟩, ⟨.colon, ":", ⟨2, 2, 7⟩⟩, ⟨.null, "null", ⟨2, 4, 9⟩⟩] := by
    decide +kernel
  have scannedMore : Token.scan "c: [], a: undefined" = .ok [⟨.identifier, "c", ⟨1, 1, 0⟩⟩,
      ⟨.colon, ":", ⟨1, 2, 1⟩⟩, ⟨.leftBracket, "[", ⟨1, 4, 3⟩⟩, ⟨.rightBracket, "]", ⟨1, 5, 4⟩⟩,
      ⟨.comma, ",", ⟨1, 6, 5⟩⟩, ⟨.identifier, "a", ⟨1, 8, 7⟩⟩, ⟨.colon, ":", ⟨1, 9, 8⟩⟩,
      ⟨.undefined, "undefined", ⟨1, 11, 10⟩⟩] := by
    decide +kernel
  have accepted : readBindings ⟨.lastWins, 1⟩ "a: x,\nb: null" = .ok kept :=
    readBindings_of_scan _ scanned
  have acceptedMore : readBindings ⟨.lastWins, 1⟩ "c: [], a: undefined" = .ok more :=
    readBindings_of_scan _ scannedMore
  have filled : kept ≠ [] := List.cons_ne_nil _ _
  have filledMore : more ≠ [] := List.cons_ne_nil _ _
  obtain ⟨lax, _⟩ := readBindings_of_joined 1 "a: x,\nb: null" "c: [], a: undefined" kept filled
  exact ⟨filled, accepted, acceptedMore, filledMore, (lax accepted).1 more acceptedMore filledMore⟩

end Bindlang
