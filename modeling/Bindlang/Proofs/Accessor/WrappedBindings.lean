import Bindlang.Proofs.Accessor.FreshContainers
import Bindlang.Proofs.Parser.Concatenation

namespace Bindlang

namespace Token

open Lexeme

variable {text : String} {ts : List Token}

theorem scanFrom_named (p : Position) (rest : List Char) :
    ∃ name colon opens, name.kind = .identifier ∧ name.lexeme = "o" ∧ colon.kind = .colon ∧
      opens.kind = .leftBrace ∧
      scanFrom false p ('o' :: ':' :: ' ' :: '{' :: rest) =
        (scanFrom false (p.after ['o', ':', ' ', '{']) rest).map (name :: colon :: opens :: ·) := by
  have isColon : Text.IsMark ':' .colon := rfl
  have isBrace : Text.IsMark '{' .leftBrace := rfl
  have isStart : Text.isIdentifierStart 'o' = true := by decide +kernel
  have inWord : ∀ c ∈ ['o'], Text.isIdentifierChar c = true :=
    List.forall_mem_singleton.2 (Text.isIdentifierChar_of_start isStart)
  have apart : Apart (':' :: ' ' :: '{' :: rest) := by
    intro c first
    cases first
    exact isColon.outside.1
  have visible := Text.isWhitespace_of_isIdentifierChar (Text.isIdentifierChar_of_start isStart)
  let name : Token := ⟨.identifier, "o", p⟩
  let colon : Token := ⟨.colon, ":", p.after ['o']⟩
  let opens : Token := ⟨.leftBrace, "\x7b", p.after ['o', ':', ' ']⟩
  have word : scanFrom false p ('o' :: ':' :: ' ' :: '{' :: rest) =
      (scanFrom false (p.after ['o']) (':' :: ' ' :: '{' :: rest)).map (name :: ·) :=
    scanFrom_first visible (first_word isStart (word_append_eq inWord apart))
  have mark : scanFrom false (p.after ['o']) (':' :: ' ' :: '{' :: rest) =
      (scanFrom false (p.after ['o', ':']) (' ' :: '{' :: rest)).map (colon :: ·) :=
    scanFrom_first isColon.outside.2 (first_mark isColon)
  have blank : scanFrom false (p.after ['o', ':']) (' ' :: '{' :: rest) =
      scanFrom false (p.after ['o', ':', ' ']) ('{' :: rest) :=
    scanFrom_blank blank_space
  have brace : scanFrom false (p.after ['o', ':', ' ']) ('{' :: rest) =
      (scanFrom false (p.after ['o', ':', ' ', '{']) rest).map (opens :: ·) :=
    scanFrom_first isBrace.outside.2 (first_mark isBrace)
  refine ⟨name, colon, opens, rfl, rfl, rfl, rfl, ?_⟩
  rw [word, mark, blank, brace]
  cases scanFrom false (p.after ['o', ':', ' ', '{']) rest <;> rfl

theorem scan_wrapped (scanned : scan text = .ok ts) :
    ∃ move name colon opens closes, name.kind = .identifier ∧ name.lexeme = "o" ∧
      colon.kind = .colon ∧ opens.kind = .leftBrace ∧ closes.kind = .rightBrace ∧
      scan ("o: \x7b" ++ text ++ "\x7d") =
        .ok (name :: colon :: opens :: (ts.map (Token.moved move) ++ [closes])) := by
  let before := ['o', ':', ' ', '{']
  let behind := Position.start.after before
  have inside := scan_behind before text
  rw [scanned] at inside
  obtain ⟨_, read, rfl⟩ := inside.exists_ok
  -- No token goes on into a brace, so those of the text end where the text ends.
  have isBrace : Text.IsMark '}' .rightBrace := rfl
  have closed := scanFrom_append (cut_mark isBrace (by decide) []) read
  rw [scanFrom_first isBrace.outside.2 (first_mark isBrace), scanFrom_nil] at closed
  obtain ⟨name, colon, opens, isName, isO, isColon, isOpening, named⟩ :=
    scanFrom_named .start (text.toList ++ ['}'])
  let closes : Token := ⟨.rightBrace, "\x7d", behind.after text.toList⟩
  refine ⟨.behind before, name, colon, opens, closes, isName, isO, isColon, isOpening, rfl, ?_⟩
  rw [scan, String.toList_append, String.toList_append, List.append_assoc]
  refine named.trans ?_
  rw [closed]
  rfl

end Token

namespace Grammar

variable {α : Type} {mark : TokenKind} {Item : List Token → α → Prop} {Good : Token → Prop}
  {Holds : α → Prop} {ts : List Token} {as : List α}

theorem Separated.forall_of_tokens
    (each : ∀ ts a, Item ts a → (∀ t ∈ ts, Good t) → Holds a) (items : Separated mark Item ts as)
    (good : ∀ t ∈ ts, Good t) : ∀ a ∈ as, Holds a := by
  induction items with
  | one item => exact List.forall_mem_singleton.2 (each _ _ item good)
  | more item _ _ ih =>
    obtain ⟨first, others⟩ := List.forall_mem_append.1 good
    exact List.forall_mem_cons.2 ⟨each _ _ item first, ih (List.forall_mem_cons.1 others).2⟩

theorem CommaList.forall_of_tokens
    (each : ∀ ts a, Item ts a → (∀ t ∈ ts, Good t) → Holds a) (items : CommaList Item ts as)
    (good : ∀ t ∈ ts, Good t) : ∀ a ∈ as, Holds a := by
  cases items with
  | none => exact List.forall_mem_nil _
  | some items => exact items.forall_of_tokens each good

def Uncalled (ts : List Token) : Prop :=
  ∀ t ∈ ts, t.kind ≠ .leftParen

theorem IsSegment.uncalled {segment : Segment} (isSegment : IsSegment ts segment)
    (uncalled : Uncalled ts) : segment.invoked = false := by
  cases isSegment with
  | member => rfl
  | call _ opens _ => exact absurd opens (uncalled _ (by simp))

theorem IsValue.callFree {e : Expression} (isValue : IsValue ts e) (uncalled : Uncalled ts) :
    e.CallFree := by
  revert uncalled
  apply isValue.inductionOn (motive := fun ts e => Uncalled ts → e.CallFree)
  · intro t l _ _
    exact Expression.forall_paths_literal l
  · intro ts p isPath uncalled
    unfold IsPath at isPath
    have segments : p.CallFree :=
      isPath.forall_of_tokens (fun _ _ isSegment => IsSegment.uncalled isSegment) uncalled
    exact Expression.forall_paths_path.2 segments
  · intro o c ts es _ items _ uncalled
    obtain ⟨inside, _⟩ := List.forall_mem_append.1 (List.forall_mem_cons.1 uncalled).2
    exact Expression.forall_paths_array.2 (items.forall_of_tokens (fun _ _ item => item.2) inside)
  · intro o c ts es _ entries _ uncalled
    obtain ⟨inside, _⟩ := List.forall_mem_append.1 (List.forall_mem_cons.1 uncalled).2
    refine Expression.forall_paths_object.2 (entries.forall_of_tokens ?_ inside)
    intro ts entry isEntry uncalled
    cases isEntry with
    | mk _ _ value =>
      exact value.2 (List.forall_mem_cons.1 (List.forall_mem_cons.1 uncalled).2).2

theorem IsBinding.callFree {b : Binding} (isBinding : IsBinding ts b) (uncalled : Uncalled ts) :
    b.value.CallFree := by
  cases isBinding with
  | mk _ _ value =>
    exact value.callFree (List.forall_mem_cons.1 (List.forall_mem_cons.1 uncalled).2).2

end Grammar

def Binding.entry (b : Binding) : String × Expression :=
  (b.name, b.value)

namespace Grammar

variable {ts : List Token} {move : Position → Position}

theorem IsBinding.isEntry {b : Binding} (isBinding : IsBinding ts b) :
    IsEntry IsValue (ts.map (Token.moved move)) b.entry := by
  cases isBinding with
  | @mk n c ts e name colon value =>
    exact @IsEntry.mk IsValue (n.moved move) (c.moved move) _ e (.inr name) colon value.moved

end Grammar

namespace Parser

open Grammar

variable {ts : List Token} {raw : List Binding} {rules : Rules} {limit : Nat}
  {name colon opens closes : Token}

theorem parse_wrapped (move : Position → Position) (isBindings : IsBindings ts raw)
    (room : ∀ b ∈ raw, b.value.depth ≤ limit) (deeper : limit < rules.maxDepth)
    (isName : name.kind = .identifier) (isColon : colon.kind = .colon)
    (isOpening : opens.kind = .leftBrace) (isClosing : closes.kind = .rightBrace) :
    parse rules (name :: colon :: opens :: (ts.map (Token.moved move) ++ [closes])) =
      .ok [⟨name.lexeme, .object (raw.map Binding.entry), name.position⟩] := by
  have entries : CommaList (IsEntry IsValue) (ts.map (Token.moved move)) (raw.map Binding.entry) :=
    isBindings.moved fun _ _ isBinding => isBinding.isEntry
  have isBinding := IsBinding.mk isName isColon (.object isOpening entries isClosing)
  have fits : (Expression.object (raw.map Binding.entry)).depth ≤ rules.maxDepth :=
    Expression.depth_object_add_le_iff.2 ⟨Nat.zero_lt_of_lt deeper,
      List.forall_mem_map.2 fun b member => Nat.lt_of_le_of_lt (room b member) deeper⟩
  exact parse_of_distinct (.some (.one isBinding)) (List.forall_mem_singleton.2 fits)
    (List.nodup_singleton _)

end Parser

open Store

variable {s t u : Store} {scope : Scope} {text : String} {bindings : List Binding}

theorem BindingSet.evaluate_ofBindings (distinct : (bindings.map Binding.name).Nodup) (scope : Scope) :
    (ofBindings bindings scope).evaluate =
      Expression.evaluateEach scope (bindings.map Binding.entry) := by
  rw [evaluate, entries_ofBindings distinct]
  clear distinct
  induction bindings with
  | nil => rfl
  | cons b bindings ih =>
    rw [List.map_cons, List.mapM_cons, ih]
    rfl

/-- The same name and alike values; what is absent from the row is undefined in the field. -/
def Store.SameRow (s t u : Store) (field : String × Value) (row : String × Option Value) : Prop :=
  field.1 = row.1 ∧ s.Alike t u field.2 (row.2.getD .undefined)

theorem Store.sameRows_of_members {entries : List (String × Value)}
    {rows : List (String × Option Value)} {members : List (String × Value × Value)}
    (inEntries : entries = members.map fun m => (m.1, m.2.1))
    (inRows : rows.map (fun row => (row.1, row.2.getD .undefined)) =
      members.map fun m => (m.1, m.2.2))
    (alike : ∀ m ∈ members, s.Alike t u m.2.1 m.2.2) : List.Forall₂ (s.SameRow t u) entries rows := by
  have pairs : List.Forall₂ (fun field row => field.1 = row.1 ∧ s.Alike t u field.2 row.2) entries
      (rows.map fun row => (row.1, row.2.getD .undefined)) := by
    rw [inEntries, inRows, List.forall₂_map_left_iff, List.forall₂_map_right_iff, List.forall₂_same]
    exact fun m member => ⟨rfl, alike m member⟩
  rw [List.forall₂_map_right_iff] at pairs
  exact pairs

/-- Entries can be merged by name before or after they are evaluated. -/
theorem Expression.alike_merged {entries : List (String × Expression)} (closed : s.Closed)
    (within : scope.Within s) (callFree : (object entries).CallFree) (grows : s.Extends t)
    (grows' : s.Extends u) :
    ∃ ref fields, ((object entries).evaluate? scope t).1 = some (.object ref) ∧
      ((object entries).evaluate? scope t).2.objects[ref.index]? = some fields ∧
      List.Forall₂ (s.SameRow ((object entries).evaluate? scope t).2
          (evaluateEach scope (Keyed.ofList Prod.fst entries) u).2)
        fields.entries (evaluateEach scope (Keyed.ofList Prod.fst entries) u).1 := by
  have each := forall_paths_object.1 callFree
  have merged : ∀ entry ∈ Keyed.ofList Prod.fst entries, BuildsAnew scope s entry.2 :=
    fun entry member => buildsAnew closed within (each entry (Keyed.mem_of_mem_ofList member))
  obtain ⟨parts, expressions, values, built, gains⟩ :=
    exists_parts_of_entries (fun entry member => buildsAnew closed within (each entry member)) grows
  obtain ⟨parts', expressions', outcomes, built', gains'⟩ := exists_parts merged grows'
  let fields : Fields Value := .ofList (parts.map fun part => (part.1, part.2.value))
  have gained := gains_newObject (evaluateEntries scope entries t).2 fields
  have new := List.forall_mem_flatMap.1 (gains.new_since grows)
  have new' := List.forall_mem_flatMap.1 (gains'.new_since grows')
  have kept : (Keyed.ofList Prod.fst parts).map (fun part => (part.1, part.2.expression)) =
      parts'.map fun part => (part.1, part.2.expression) := by
    rw [Keyed.map_values_ofList, ← expressions, expressions']
  obtain ⟨members, inFields, inRows, alike⟩ := exists_members kept
    fun part member part' member' agree => by
      have inside := Keyed.mem_of_mem_ofList member
      have other := built' part' member'
      rw [← agree] at other
      exact .orUndefined (alike_of_built closed within ((built part inside).extend gained.grows) other
        (new part inside) (new' part' member'))
  rw [Keyed.map_values_ofList] at inFields
  rw [evaluate_object, values]
  refine ⟨_, fields, rfl, Array.getElem?_push_size, ?_⟩
  refine Store.sameRows_of_members inFields ?_ alike
  rw [outcomes, ← inRows, List.map_map]
  rfl

/-- A binding string inside braces gives an object with the rows of its evaluated set. -/
theorem Options.wrapped_evaluates_alike {options wide : Options}
    (lax : options.rules.duplicates = .lastWins)
    (deeper : options.rules.maxDepth < wide.rules.maxDepth)
    (accepted : options.bindings text = .ok bindings)
    (uncalled : ∀ tokens, Token.scan text = .ok tokens → Grammar.Uncalled tokens)
    (closed : s.Closed) (within : scope.Within s) (grows : s.Extends t) (grows' : s.Extends u) :
    ∃ set wrapper a, options.bind text scope = .ok set ∧
      wide.bind ("o: \x7b" ++ text ++ "\x7d") scope = .ok wrapper ∧ wrapper.names = ["o"] ∧
      wrapper.get? "o" = some a ∧ ∃ ref fields, (a.read? t).1 = some (.object ref) ∧
        (a.read? t).2.objects[ref.index]? = some fields ∧
        List.Forall₂ (s.SameRow (a.read? t).2 (set.evaluate u).2) fields.entries
          (set.evaluate u).1 := by
  obtain ⟨tokens, scanned, parsed⟩ := exists_tokens_of_readBindings accepted
  obtain ⟨raw, isBindings, room, added⟩ := Parser.parse_eq_ok_iff.1 parsed
  rw [lax, Parser.foldlM_add_lastWins] at added
  obtain rfl : Keyed.ofList Binding.name raw = bindings := Except.ok.inj added
  obtain ⟨move, name, colon, opens, closes, isName, isO, isColon, isOpening, isClosing, scannedMore⟩ :=
    Token.scan_wrapped scanned
  let wrapped : Binding := ⟨name.lexeme, .object (raw.map Binding.entry), name.position⟩
  have acceptedMore : wide.bindings ("o: \x7b" ++ text ++ "\x7d") = .ok [wrapped] := by
    rw [Options.bindings, readBindings_of_scan _ scannedMore,
      Parser.parse_wrapped move isBindings room deeper isName isColon isOpening isClosing]
    rfl
  have distinct : (List.map Binding.name [wrapped]).Nodup := List.nodup_singleton _
  have named : wrapped.name = "o" := isO
  have found := BindingSet.get_ofBindings distinct List.mem_cons_self scope
  rw [named] at found
  refine ⟨_, _, _, bind_of_bindings accepted scope, bind_of_bindings acceptedMore scope, ?_, found, ?_⟩
  · rw [BindingSet.names_ofBindings distinct, List.map_singleton, named]
  · have each : ∀ b ∈ raw, b.value.CallFree :=
      isBindings.forall_of_tokens (fun _ _ isBinding => isBinding.callFree) (uncalled tokens scanned)
    have callFree : wrapped.value.CallFree :=
      Expression.forall_paths_object.2 (List.forall_mem_map.2 each)
    have entries : (Keyed.ofList Binding.name raw).map Binding.entry =
        Keyed.ofList Prod.fst (raw.map Binding.entry) := by
      apply Keyed.map_ofList
      exact fun _ => rfl
    rw [BindingSet.evaluate_ofBindings (nodup_of_readBindings accepted), entries]
    exact Expression.alike_merged closed within callFree grows grows'

theorem Options.repeated_name_wrapped :
    let s := (newObject (.ofList [("x", .array ⟨0⟩)]) (newArray [] empty).2).2
    let scope : Scope := ⟨.object ⟨0⟩, none⟩
    let options : Options := ⟨"data-sbind", ⟨.lastWins, 1⟩⟩
    let wide : Options := ⟨"data-sbind", ⟨.lastWins, 2⟩⟩
    ∃ set wrapper a, options.bind "a: y,b: x,a: []" scope = .ok set ∧
      wide.bind ("o: \x7b" ++ "a: y,b: x,a: []" ++ "\x7d") scope = .ok wrapper ∧
      wrapper.names = ["o"] ∧ wrapper.get? "o" = some a ∧
      ∃ ref fields, (a.read? s).1 = some (.object ref) ∧
        (a.read? s).2.objects[ref.index]? = some fields ∧
        List.Forall₂ (s.SameRow (a.read? s).2 (set.evaluate s).2) fields.entries
          (set.evaluate s).1 := by
  intro s scope options wide
  have scanned : Token.scan "a: y,b: x,a: []" = .ok [⟨.identifier, "a", ⟨1, 1, 0⟩⟩,
      ⟨.colon, ":", ⟨1, 2, 1⟩⟩, ⟨.identifier, "y", ⟨1, 4, 3⟩⟩, ⟨.comma, ",", ⟨1, 5, 4⟩⟩,
      ⟨.identifier, "b", ⟨1, 6, 5⟩⟩, ⟨.colon, ":", ⟨1, 7, 6⟩⟩, ⟨.identifier, "x", ⟨1, 9, 8⟩⟩,
      ⟨.comma, ",", ⟨1, 10, 9⟩⟩, ⟨.identifier, "a", ⟨1, 11, 10⟩⟩, ⟨.colon, ":", ⟨1, 12, 11⟩⟩,
      ⟨.leftBracket, "[", ⟨1, 14, 13⟩⟩, ⟨.rightBracket, "]", ⟨1, 15, 14⟩⟩] := by
    decide +kernel
  have accepted : options.bindings "a: y,b: x,a: []" =
      .ok [⟨"a", .array [], ⟨1, 11, 10⟩⟩, ⟨"b", .path [⟨"x", false⟩], ⟨1, 6, 5⟩⟩] :=
    readBindings_of_scan _ scanned
  have uncalled : ∀ tokens, Token.scan "a: y,b: x,a: []" = .ok tokens → Grammar.Uncalled tokens := by
    intro tokens again
    obtain rfl := Except.ok.inj (scanned.symm.trans again)
    unfold Grammar.Uncalled
    decide
  have closed : s.Closed := (closed_empty.newArray (by decide)).newObject (by decide)
  have within : scope.Within s := ⟨by decide, fun _ none => nomatch none⟩
  have deeper : options.rules.maxDepth < wide.rules.maxDepth := by decide
  have lax : options.rules.duplicates = .lastWins := rfl
  exact wrapped_evaluates_alike lax deeper accepted uncalled closed within (.refl s) (.refl s)

end Bindlang
