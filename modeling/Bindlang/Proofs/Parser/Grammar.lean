import Bindlang.Binding.Parser
import Bindlang.Proofs.Data.Collections

namespace Bindlang

namespace Expression

mutual

/-- How many containers stand inside each other, at most. -/
def depth : Expression → Nat
  | literal _ | path _ => 0
  | array items => depthOfItems items + 1
  | object entries => depthOfEntries entries + 1

def depthOfItems : List Expression → Nat
  | [] => 0
  | item :: items => max item.depth (depthOfItems items)

def depthOfEntries : List (String × Expression) → Nat
  | [] => 0
  | (_, value) :: entries => max value.depth (depthOfEntries entries)

end

@[simp] theorem depth_literal (l : Literal) : (literal l).depth = 0 := by
  simp [depth]

@[simp] theorem depth_path (p : Path) : (path p).depth = 0 := by
  simp [depth]

theorem depthOfItems_eq_greatest (items : List Expression) :
    depthOfItems items = items.greatest depth := by
  induction items with
  | nil => rfl
  | cons item items ih => rw [depthOfItems, List.greatest, ih]

theorem depthOfEntries_eq_greatest (entries : List (String × Expression)) :
    depthOfEntries entries = entries.greatest fun entry => entry.2.depth := by
  induction entries with
  | nil => rfl
  | cons entry entries ih => rw [depthOfEntries, List.greatest, ih]

theorem depth_array_add_le_iff {items : List Expression} {k n : Nat} :
    (array items).depth + k ≤ n ↔ k < n ∧ ∀ item ∈ items, item.depth + (k + 1) ≤ n := by
  rw [depth, depthOfItems_eq_greatest]
  exact List.greatest_add_le_iff k n

theorem depth_object_add_le_iff {entries : List (String × Expression)} {k n : Nat} :
    (object entries).depth + k ≤ n ↔ k < n ∧ ∀ entry ∈ entries, entry.2.depth + (k + 1) ≤ n := by
  rw [depth, depthOfEntries_eq_greatest]
  exact List.greatest_add_le_iff k n

end Expression

namespace Grammar

inductive Separated {α : Type} (mark : TokenKind) (Item : List Token → α → Prop) :
    List Token → List α → Prop
  | one {ts : List Token} {a : α} (item : Item ts a) : Separated mark Item ts [a]
  | more {ts us : List Token} {m : Token} {a : α} {as : List α} (item : Item ts a)
      (isMark : m.kind = mark) (others : Separated mark Item us as) :
      Separated mark Item (ts ++ m :: us) (a :: as)

inductive CommaList {α : Type} (Item : List Token → α → Prop) : List Token → List α → Prop
  | none : CommaList Item [] []
  | some {ts : List Token} {as : List α} (items : Separated .comma Item ts as) :
      CommaList Item ts as

inductive IsLiteral : Token → Literal → Prop
  | string {t : Token} (kind : t.kind = .string) : IsLiteral t (.string t.lexeme)
  /-- A number is one only if its text can be read. -/
  | number {t : Token} {l : Literal} (kind : t.kind = .number)
      (reads : Literal.ofNumber? t.lexeme = some l) : IsLiteral t l
  | boolean {t : Token} (kind : t.kind = .boolean) : IsLiteral t (.boolean (t.lexeme == "true"))
  | null {t : Token} (kind : t.kind = .null) : IsLiteral t .null
  | undefined {t : Token} (kind : t.kind = .undefined) : IsLiteral t .undefined

inductive IsSegment : List Token → Segment → Prop
  | member {t : Token} (name : t.kind = .identifier) : IsSegment [t] ⟨t.lexeme, false⟩
  | call {t l r : Token} (name : t.kind = .identifier) (opens : l.kind = .leftParen)
      (closes : r.kind = .rightParen) : IsSegment [t, l, r] ⟨t.lexeme, true⟩

def IsPath : List Token → Path → Prop :=
  Separated .dot IsSegment

inductive IsEntry (Value : List Token → Expression → Prop) :
    List Token → String × Expression → Prop
  | mk {k c : Token} {ts : List Token} {e : Expression}
      (key : k.kind = .string ∨ k.kind = .identifier) (colon : c.kind = .colon)
      (value : Value ts e) : IsEntry Value (k :: c :: ts) (k.lexeme, e)

inductive IsValue : List Token → Expression → Prop
  | literal {t : Token} {l : Literal} (literal : IsLiteral t l) : IsValue [t] (.literal l)
  | path {ts : List Token} {p : Path} (path : IsPath ts p) : IsValue ts (.path p)
  | array {o c : Token} {ts : List Token} {es : List Expression} (opens : o.kind = .leftBracket)
      (items : CommaList IsValue ts es) (closes : c.kind = .rightBracket) :
      IsValue (o :: (ts ++ [c])) (.array es)
  | object {o c : Token} {ts : List Token} {es : List (String × Expression)}
      (opens : o.kind = .leftBrace) (entries : CommaList (IsEntry IsValue) ts es)
      (closes : c.kind = .rightBrace) : IsValue (o :: (ts ++ [c])) (.object es)

inductive IsBinding : List Token → Binding → Prop
  | mk {n c : Token} {ts : List Token} {e : Expression} (name : n.kind = .identifier)
      (colon : c.kind = .colon) (value : IsValue ts e) :
      IsBinding (n :: c :: ts) ⟨n.lexeme, e, n.position⟩

def IsBindings : List Token → List Binding → Prop :=
  CommaList IsBinding

variable {α : Type} {mark : TokenKind} {Item Other : List Token → α → Prop}

theorem Separated.imp (weaker : ∀ ts a, Item ts a → Other ts a) {ts : List Token} {as : List α}
    (items : Separated mark Item ts as) : Separated mark Other ts as := by
  induction items with
  | one item => exact .one (weaker _ _ item)
  | more item isMark _ ih => exact .more (weaker _ _ item) isMark ih

theorem Separated.append {ts us : List Token} {m : Token} {as bs : List α}
    (before : Separated mark Item ts as) (isMark : m.kind = mark)
    (behind : Separated mark Item us bs) : Separated mark Item (ts ++ m :: us) (as ++ bs) := by
  induction before with
  | one item => exact .more item isMark behind
  | more item isMark' _ ih =>
    rw [List.append_assoc, List.cons_append]
    exact .more item isMark' ih

theorem CommaList.imp (weaker : ∀ ts a, Item ts a → Other ts a) {ts : List Token} {as : List α}
    (items : CommaList Item ts as) : CommaList Other ts as := by
  cases items with
  | none => exact .none
  | some items => exact .some (items.imp weaker)

theorem Separated.map {β : Type} {f : β → α} {ts : List Token} {bs : List β}
    (items : Separated mark (fun ts b => Item ts (f b)) ts bs) :
    Separated mark Item ts (bs.map f) := by
  induction items with
  | one item => exact .one item
  | more item isMark _ ih => exact .more item isMark ih

theorem CommaList.map {β : Type} {f : β → α} {ts : List Token} {bs : List β}
    (items : CommaList (fun ts b => Item ts (f b)) ts bs) : CommaList Item ts (bs.map f) := by
  cases items with
  | none => exact .none
  | some items => exact .some items.map

theorem IsEntry.imp {Value Other : List Token → Expression → Prop}
    (weaker : ∀ ts e, Value ts e → Other ts e) {ts : List Token} {entry : String × Expression}
    (isEntry : IsEntry Value ts entry) : IsEntry Other ts entry := by
  cases isEntry with
  | mk key colon value => exact .mk key colon (weaker _ _ value)

theorem IsValue.inductionOn {motive : List Token → Expression → Prop} {ts : List Token}
    {e : Expression} (value : IsValue ts e)
    (literal : ∀ {t l}, IsLiteral t l → motive [t] (.literal l))
    (path : ∀ {ts p}, IsPath ts p → motive ts (.path p))
    (array : ∀ {o c : Token} {ts es}, o.kind = .leftBracket →
      CommaList (fun ts e => IsValue ts e ∧ motive ts e) ts es → c.kind = .rightBracket →
      motive (o :: (ts ++ [c])) (.array es))
    (object : ∀ {o c : Token} {ts es}, o.kind = .leftBrace →
      CommaList (IsEntry fun ts e => IsValue ts e ∧ motive ts e) ts es → c.kind = .rightBrace →
      motive (o :: (ts ++ [c])) (.object es)) : motive ts e :=
  -- The lists of parts are inductive types of their own: for them, too, something must be shown.
  let Holds := fun ts e => IsValue ts e ∧ motive ts e
  @IsValue.rec (fun ts e _ => motive ts e) (fun ts es _ => CommaList Holds ts es)
    (fun ts es _ => CommaList (IsEntry Holds) ts es)
    (fun ts es _ => Separated .comma Holds ts es)
    (fun ts es _ => Separated .comma (IsEntry Holds) ts es)
    (fun ts entry _ => IsEntry Holds ts entry)
    literal path (fun opens _ closes items => array opens items closes)
    (fun opens _ closes entries => object opens entries closes)
    .none (fun _ => .some) .none (fun _ => .some)
    (fun value shown => .one ⟨value, shown⟩)
    (fun value isMark _ shown others => .more ⟨value, shown⟩ isMark others)
    (fun _ => .one) (fun _ isMark _ entry others => .more entry isMark others)
    (fun key colon value shown => .mk key colon ⟨value, shown⟩) ts e value

theorem IsValue.exists_cons {ts : List Token} {e : Expression} (value : IsValue ts e) :
    ∃ t us, ts = t :: us ∧ t.kind ≠ .rightBracket := by
  cases value with
  | literal literal =>
    refine ⟨_, _, rfl, ?_⟩
    cases literal with
    | string kind | number kind | boolean kind | null kind | undefined kind => simp [kind]
  | path path =>
    cases path with
    | one segment | more segment =>
      cases segment with
      | member name | call name => exact ⟨_, _, rfl, by simp [name]⟩
  | array opens | object opens => exact ⟨_, _, rfl, by simp [opens]⟩

end Grammar
end Bindlang
