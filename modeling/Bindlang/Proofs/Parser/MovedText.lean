import Bindlang.Proofs.Parser.Positions
import Bindlang.Proofs.Token.Spelling

namespace Bindlang

namespace Position

/-- The place once `before` stands in front: only on the first line the column changes. -/
def behind (before : List Char) (p : Position) : Position where
  line := p.line + before.count '\n'
  column :=
    if p.line = 1 then p.column + (before.reverse.takeWhile (· != '\n')).length else p.column
  offset := p.offset + before.length

variable {p : Position} {before : List Char}

theorem start_behind (before : List Char) : start.behind before = start.after before := by
  rw [start_after]
  simp [behind, start, Nat.add_comm]

theorem line_advance (inText : 1 ≤ p.line) (c : Char) : 1 ≤ (p.advance c).line := by
  unfold advance
  split
  · exact Nat.le_add_left 1 p.line
  · exact inText

theorem line_after (inText : 1 ≤ p.line) (text : List Char) : 1 ≤ (p.after text).line := by
  induction text generalizing p with
  | nil => exact inText
  | cons c text ih => exact ih (line_advance inText c)

theorem behind_advance (inText : 1 ≤ p.line) (before : List Char) (c : Char) :
    (p.advance c).behind before = (p.behind before).advance c := by
  unfold advance
  -- A line feed moves the place off the first line, the only one where the column changes.
  by_cases newline : c = '\n'
  · have below : p.line + 1 ≠ 1 := by omega
    simp only [newline, behind, if_pos, if_neg below]
    congr 1
    · omega
    · omega
  · simp only [newline, behind, if_false]
    by_cases firstLine : p.line = 1
    · simp only [firstLine, if_true]
      congr 1 <;> omega
    · simp only [firstLine, if_false]
      congr 1
      omega

theorem behind_after (inText : 1 ≤ p.line) (before text : List Char) :
    (p.after text).behind before = (p.behind before).after text := by
  induction text generalizing p with
  | nil => rfl
  | cons c text ih =>
    rw [after_cons, after_cons, ih (line_advance inText c), behind_advance inText]

end Position

section Moved

variable (move : Position → Position)

def Token.moved (t : Token) : Token :=
  ⟨t.kind, t.lexeme, move t.position⟩

def Binding.moved (b : Binding) : Binding :=
  ⟨b.name, b.value, move b.position⟩

def LexError.moved : LexError → LexError
  | unterminatedString p => unterminatedString (move p)
  | unexpectedCharacter c p => unexpectedCharacter c (move p)

def ParseError.moved : ParseError → ParseError
  | unexpectedToken expected found => unexpectedToken expected (found.moved move)
  | unexpectedEnd expected => unexpectedEnd expected
  | duplicateName name p => duplicateName name (move p)
  | nestingTooDeep limit p => nestingTooDeep limit (move p)

def SyntaxError.moved : SyntaxError → SyntaxError
  | lexical cause => lexical (cause.moved move)
  | grammatical cause => grammatical (cause.moved move)

end Moved

namespace Grammar

variable {α β : Type} {mark : TokenKind} {Item : List Token → α → Prop}
  {Other : List Token → β → Prop} {move : Position → Position} {ts : List Token}

theorem Separated.moved {f : α → β}
    (each : ∀ ts a, Item ts a → Other (ts.map (Token.moved move)) (f a)) {as : List α}
    (items : Separated mark Item ts as) :
    Separated mark Other (ts.map (Token.moved move)) (as.map f) := by
  induction items with
  | one item => exact .one (each _ _ item)
  | more item isMark _ ih =>
    rw [List.map_append, List.map_cons, List.map_cons]
    exact .more (each _ _ item) isMark ih

theorem CommaList.moved {f : α → β}
    (each : ∀ ts a, Item ts a → Other (ts.map (Token.moved move)) (f a)) {as : List α}
    (items : CommaList Item ts as) :
    CommaList Other (ts.map (Token.moved move)) (as.map f) := by
  cases items with
  | none => exact .none
  | some items => exact .some (items.moved each)

theorem IsLiteral.moved {t : Token} {l : Literal} (isLiteral : IsLiteral t l) :
    IsLiteral (t.moved move) l := by
  cases isLiteral with
  | string kind => exact @IsLiteral.string (t.moved move) kind
  | number kind reads => exact .number kind reads
  | boolean kind => exact @IsLiteral.boolean (t.moved move) kind
  | null kind => exact .null kind
  | undefined kind => exact .undefined kind

theorem IsSegment.moved {segment : Segment} (isSegment : IsSegment ts segment) :
    IsSegment (ts.map (Token.moved move)) segment := by
  cases isSegment with
  | @member t name => exact @IsSegment.member (t.moved move) name
  | @call t l r name opens closes =>
    exact @IsSegment.call (t.moved move) (l.moved move) (r.moved move) name opens closes

theorem IsEntry.moved {Value : List Token → Expression → Prop} {entry : String × Expression}
    (each : ∀ ts value, Value ts value → IsValue (ts.map (Token.moved move)) value)
    (isEntry : IsEntry Value ts entry) :
    IsEntry IsValue (ts.map (Token.moved move)) entry := by
  cases isEntry with
  | @mk k c ts value key colon holds =>
    exact @IsEntry.mk IsValue (k.moved move) (c.moved move) _ value key colon (each ts value holds)

/-- The grammar does not look at positions. -/
theorem IsValue.moved {value : Expression} (isValue : IsValue ts value) :
    IsValue (ts.map (Token.moved move)) value := by
  apply isValue.inductionOn (motive := fun ts value => IsValue (ts.map (Token.moved move)) value)
  · intro t l isLiteral
    exact .literal isLiteral.moved
  · intro ts p isPath
    have segments : Separated .dot IsSegment (ts.map (Token.moved move)) (p.map id) :=
      Separated.moved (fun _ segment (isSegment : IsSegment _ segment) => isSegment.moved) isPath
    rw [List.map_id] at segments
    exact .path segments
  · intro o c ts values opens items closes
    have moved := items.moved (f := id) fun _ _ item => item.2
    rw [List.map_id] at moved
    rw [List.map_cons, List.map_append]
    exact .array opens moved closes
  · intro o c ts values opens entries closes
    have moved := entries.moved (f := id) fun _ _ entry => entry.moved fun _ _ => And.right
    rw [List.map_id] at moved
    rw [List.map_cons, List.map_append]
    exact .object opens moved closes

theorem IsBinding.moved {b : Binding} (isBinding : IsBinding ts b) :
    IsBinding (ts.map (Token.moved move)) (b.moved move) := by
  cases isBinding with
  | @mk n c ts value name colon isValue =>
    exact @IsBinding.mk (n.moved move) (c.moved move) _ value name colon isValue.moved

end Grammar

namespace Token

open Lexeme

variable {p : Position}

theorem skipBlank_behind (inText : 1 ≤ p.line) (before text : List Char) :
    skipBlank (p.behind before) text =
      ((skipBlank p text).1.behind before, (skipBlank p text).2) := by
  rw [skipBlank, skipBlank, Position.behind_after inText]

theorem ofFault_behind (inText : 1 ≤ p.line) (before : List Char) (fault : Fault) :
    LexError.ofFault (p.behind before) fault =
      (LexError.ofFault p fault).moved (Position.behind before) := by
  cases fault with
  | unterminatedString => rfl
  | unexpectedCharacter skipped found =>
    rw [LexError.ofFault, ← Position.behind_after inText]
    rfl

theorem scanFrom_behind (afterDot : Bool) (inText : 1 ≤ p.line) (before text : List Char) :
    Corresponds (LexError.moved (Position.behind before))
      (fun ts us => us = ts.map (Token.moved (Position.behind before)))
      (scanFrom afterDot p text) (scanFrom afterDot (p.behind before) text) := by
  fun_induction scanFrom afterDot p text with
  | case1 afterDot p text nothing =>
    rw [scanFrom_eq, skipBlank_behind inText, nothing]
    exact .ok rfl
  | case2 afterDot p text c rest more here fault failed =>
    have inTextHere : 1 ≤ here.line := Position.line_after inText _
    rw [scanFrom_eq afterDot (p.behind before), skipBlank_behind inText, more]
    simp only [failed]
    have moved := ofFault_behind inTextHere before fault
    exact moved ▸ .error _
  | case3 afterDot p text c rest more here l read shorter ih =>
    have inTextHere : 1 ≤ here.line := Position.line_after inText _
    rw [scanFrom_eq afterDot (p.behind before), skipBlank_behind inText, more]
    simp only [read]
    rw [← Position.behind_after inTextHere]
    apply (ih (Position.line_after inTextHere _)).map
    intro ts us same
    rw [same, List.map_cons]
    rfl

theorem scan_behind (before : List Char) (text : String) :
    Corresponds (LexError.moved (Position.behind before))
      (fun ts us => us = ts.map (Token.moved (Position.behind before)))
      (scan text) (scanFrom false (Position.start.after before) text.toList) := by
  rw [← Position.start_behind]
  exact scanFrom_behind false (Nat.le_refl 1) before text.toList

end Token

namespace Parser

section Machine

variable (move : Position → Position)

def Hole.moved (hole : Hole) : Hole :=
  ⟨hole.name, move hole.position, hole.frames⟩

def Separator.moved : Separator → Separator
  | binding => binding
  | element hole items => element (hole.moved move) items
  | entry hole entries => entry (hole.moved move) entries

def Awaiting.moved : Awaiting → Awaiting
  | bindingName => bindingName
  | bindingColon name p => bindingColon name (move p)
  | value hole => value (hole.moved move)
  | firstElement hole => firstElement (hole.moved move)
  | firstKey hole => firstKey (hole.moved move)
  | nextKey hole entries => nextKey (hole.moved move) entries
  | entryColon hole entries key => entryColon (hole.moved move) entries key
  | nameEnd hole path name => nameEnd (hole.moved move) path name
  | callEnd hole path name => callEnd (hole.moved move) path name
  | pathEnd hole path => pathEnd (hole.moved move) path
  | memberName hole path => memberName (hole.moved move) path
  | separator s => separator (s.moved move)

end Machine

section Lockstep

variable {move : Position → Position} {Kept : List Binding → List Binding → Prop} {rules : Rules}
  {kept kept' : List Binding} {hole : Hole} {t : Token} {s s' : State} {ts : List Token}

/-- Machines at the same place, one of them in moved text, with bindings that belong together. -/
structure InStep (move : Position → Position) (Kept : List Binding → List Binding → Prop)
    (s s' : State) : Prop where
  kept : Kept s.bindings s'.bindings
  awaiting : s'.awaiting = s.awaiting.moved move

def AddsInStep (move : Position → Position) (Kept : List Binding → List Binding → Prop)
    (policy : DuplicatePolicy) : Prop :=
  ∀ kept kept' b, Kept kept kept' →
    Corresponds (ParseError.moved move) Kept (add policy kept b) (add policy kept' (b.moved move))

variable (adds : AddsInStep move Kept rules.duplicates)

theorem inStep_take {kind : TokenKind} {expected : Expected} (together : Kept kept kept')
    (next : Awaiting) (t : Token) :
    Corresponds (ParseError.moved move) (InStep move Kept)
      (if t.kind = kind then .ok ⟨kept, next⟩ else .error (.unexpectedToken expected t))
      (if (t.moved move).kind = kind then .ok ⟨kept', next.moved move⟩
        else .error (.unexpectedToken expected (t.moved move))) :=
  .ite .rfl (.ok ⟨together, rfl⟩) (.error _)

theorem inStep_openContainer {limit : Nat} (together : InStep move Kept s s') (hole : Hole)
    (t : Token) :
    Corresponds (ParseError.moved move) (InStep move Kept) (openContainer limit hole t s)
      (openContainer limit (hole.moved move) (t.moved move) s') :=
  .ite .rfl (.error _) (.ok together)

theorem inStep_beginEntry (together : Kept kept kept') (hole : Hole)
    (entries : List (String × Expression)) (t : Token) :
    Corresponds (ParseError.moved move) (InStep move Kept) (beginEntry kept hole entries t)
      (beginEntry kept' (hole.moved move) entries (t.moved move)) :=
  .ite .rfl (.ok ⟨together, rfl⟩) (.error _)

include adds

theorem inStep_fill (together : Kept kept kept') (hole : Hole) (value : Expression) :
    Corresponds (ParseError.moved move)
      (fun filled filled' => Kept filled.1 filled'.1 ∧ filled'.2 = filled.2.moved move)
      (fill rules.duplicates kept hole value)
      (fill rules.duplicates kept' (hole.moved move) value) := by
  obtain ⟨name, position, frames⟩ := hole
  cases frames with
  | nil =>
    apply (adds kept kept' ⟨name, value, position⟩ together).map
    intro more more' together
    exact ⟨together, rfl⟩
  | cons frame frames => cases frame <;> exact .ok ⟨together, rfl⟩

theorem inStep_complete (together : Kept kept kept') (hole : Hole) (value : Expression) :
    Corresponds (ParseError.moved move) (InStep move Kept)
      (complete rules.duplicates kept hole value)
      (complete rules.duplicates kept' (hole.moved move) value) := by
  apply (inStep_fill adds together hole value).map
  intro filled filled' both
  exact ⟨both.1, congrArg Awaiting.separator both.2⟩

theorem inStep_beginValue (together : Kept kept kept') (hole : Hole) (t : Token) :
    Corresponds (ParseError.moved move) (InStep move Kept) (beginValue rules kept hole t)
      (beginValue rules kept' (hole.moved move) (t.moved move)) := by
  have literal (l : Literal) := inStep_complete adds together hole (.literal l)
  simp only [beginValue, Token.moved]
  split
  · exact literal _
  · split
    · exact literal _
    · exact .error _
  · exact literal _
  · exact literal _
  · exact literal _
  · exact inStep_openContainer ⟨together, rfl⟩ hole t
  · exact inStep_openContainer ⟨together, rfl⟩ hole t
  · exact .ok ⟨together, rfl⟩
  · exact .error _

theorem inStep_separate (together : Kept kept kept') (t : Token) (separator : Separator) :
    Corresponds (ParseError.moved move) (InStep move Kept)
      (separate rules.duplicates kept t separator)
      (separate rules.duplicates kept' (t.moved move) (separator.moved move)) := by
  cases separator with
  | binding => exact inStep_take together .bindingName t
  | element hole items | entry hole entries =>
    apply Corresponds.ite .rfl (.ok ⟨together, rfl⟩)
    exact .ite .rfl (inStep_complete adds together hole _) (.error _)

theorem inStep_leavePath (together : Kept kept kept') (hole : Hole) (path : List Segment)
    (t : Token) :
    Corresponds (ParseError.moved move) (InStep move Kept)
      (leavePath rules.duplicates kept hole path t)
      (leavePath rules.duplicates kept' (hole.moved move) path (t.moved move)) := by
  apply (inStep_fill adds together hole (.path path.reverse)).bind
  rintro ⟨more, separator⟩ ⟨more', _⟩ ⟨together, rfl⟩
  exact inStep_separate adds together t separator

theorem inStep_step (together : InStep move Kept s s') (t : Token) :
    Corresponds (ParseError.moved move) (InStep move Kept) (step rules s t)
      (step rules s' (t.moved move)) := by
  obtain ⟨kept, awaiting⟩ := s
  obtain ⟨kept', _⟩ := s'
  obtain ⟨together, rfl⟩ := together
  cases awaiting with
  | bindingName => exact inStep_take together (.bindingColon t.lexeme t.position) t
  | bindingColon name p => exact inStep_take together (.value ⟨name, p, []⟩) t
  | value hole => exact inStep_beginValue adds together hole t
  | firstElement hole =>
    apply Corresponds.ite .rfl (inStep_complete adds together hole (.array []))
    exact inStep_beginValue adds together (hole.inArray []) t
  | firstKey hole =>
    apply Corresponds.ite .rfl (inStep_complete adds together hole (.object []))
    exact inStep_beginEntry together hole [] t
  | nextKey hole entries => exact inStep_beginEntry together hole entries t
  | entryColon hole entries key => exact inStep_take together (.value (hole.inObject entries key)) t
  | nameEnd hole path name =>
    apply Corresponds.ite .rfl (.ok ⟨together, rfl⟩)
    apply Corresponds.ite .rfl (.ok ⟨together, rfl⟩)
    exact inStep_leavePath adds together hole (⟨name, false⟩ :: path) t
  | callEnd hole path name => exact inStep_take together (.pathEnd hole (⟨name, true⟩ :: path)) t
  | pathEnd hole path =>
    apply Corresponds.ite .rfl (.ok ⟨together, rfl⟩)
    exact inStep_leavePath adds together hole path t
  | memberName hole path => exact inStep_take together (.nameEnd hole path t.lexeme) t
  | separator separator => exact inStep_separate adds together t separator

theorem inStep_run (together : InStep move Kept s s') (ts : List Token) :
    Corresponds (ParseError.moved move) (InStep move Kept) (run rules s ts)
      (run rules s' (ts.map (Token.moved move))) := by
  induction ts generalizing s s' with
  | nil => exact .ok together
  | cons t ts ih =>
    rw [List.map_cons, run_cons, run_cons]
    apply (inStep_step adds together t).bind
    intro next next' together
    exact ih together

theorem inStep_endPath (together : Kept kept kept') (hole : Hole) (path : List Segment) :
    Corresponds (ParseError.moved move) Kept (endPath rules.duplicates kept hole path)
      (endPath rules.duplicates kept' (hole.moved move) path) := by
  apply (inStep_fill adds together hole (.path path.reverse)).bind
  rintro ⟨more, separator⟩ ⟨more', _⟩ ⟨together, rfl⟩
  cases separator with
  | binding => exact .ok together
  | element | entry => exact .error _

theorem inStep_finish (together : InStep move Kept s s') :
    Corresponds (ParseError.moved move) Kept (finish rules.duplicates s)
      (finish rules.duplicates s') := by
  obtain ⟨kept, awaiting⟩ := s
  obtain ⟨kept', _⟩ := s'
  obtain ⟨together, rfl⟩ := together
  cases awaiting with
  | nameEnd hole path name => exact inStep_endPath adds together hole (⟨name, false⟩ :: path)
  | pathEnd hole path => exact inStep_endPath adds together hole path
  | separator separator =>
    cases separator with
    | binding => exact .ok together
    | element | entry => exact .error _
  | _ => exact .error _

end Lockstep

end Parser

end Bindlang
