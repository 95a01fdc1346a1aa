import Bindlang.Proofs.Decimal.Binary64
import Bindlang.Proofs.Parser.Soundness
import Bindlang.Proofs.Token.Soundness

namespace Bindlang

namespace NumberText

theorem isNaN_of_readFloat {text : List Char} {negative : Bool} {d : Decimal} {x : Float}
    (isNumber : IsNumber text negative d) (reads : Decimal.readFloat? text = some x) :
    x.isNaN = false := by
  rw [readFloat_eq isNumber] at reads
  cases reads
  have magnitude := Binary64.isNaN_toFloat d
  cases negative with
  | false => exact magnitude
  | true => exact Binary64.isNaN_neg magnitude

end NumberText

theorem Literal.wellFormed_of_ofNumber {lexeme : String} {negative : Bool} {d : Decimal} {l : Literal}
    (isNumber : NumberText.IsNumber lexeme.toList negative d) (reads : ofNumber? lexeme = some l) :
    l.WellFormed (·.isNaN = false) := by
  have ofFloat : (Decimal.readFloat? lexeme.toList).map Literal.float = some l →
      l.WellFormed (·.isNaN = false) := by
    intro float
    obtain ⟨x, isFloat, rfl⟩ := Option.map_eq_some_iff.1 float
    exact NumberText.isNaN_of_readFloat isNumber isFloat
  simp only [ofNumber?] at reads
  split at reads
  · exact ofFloat reads
  · rcases Option.or_eq_some_iff.1 reads with reads | ⟨_, reads⟩
    · obtain ⟨n, _, rfl⟩ := Option.map_eq_some_iff.1 reads
      trivial
    · exact ofFloat reads

/-- The expressions that an expression is made up of, at any depth. -/
inductive Expression.Within (inner : Expression) : Expression → Prop
  | self : Within inner inner
  | item {items : List Expression} {item : Expression} (member : item ∈ items)
      (within : Within inner item) : Within inner (.array items)
  | entry {entries : List (String × Expression)} {entry : String × Expression}
      (member : entry ∈ entries) (within : Within inner entry.2) : Within inner (.object entries)

theorem Expression.WellFormed.within {Fits : Float → Prop} {inner e : Expression}
    (wellFormed : e.WellFormed Fits) (within : inner.Within e) : inner.WellFormed Fits := by
  induction within with
  | self => exact wellFormed
  | item member _ ih =>
    cases wellFormed with
    | array each => exact ih (each _ member)
  | entry member _ ih =>
    cases wellFormed with
    | object _ values => exact ih (values _ member)

namespace Path

variable {p : Path}

theorem WellFormed.ne_nil (wellFormed : WellFormed p) : p ≠ [] := by
  rintro rfl
  exact wellFormed

theorem WellFormed.inWord (wellFormed : WellFormed p) :
    ∀ segment ∈ p, segment.name.toList.all Text.isIdentifierChar = true := by
  cases p with
  | nil => exact wellFormed.elim
  | cons first members =>
    obtain ⟨isIdentifier, isMember⟩ := wellFormed
    exact List.forall_mem_cons.2 ⟨isIdentifier.inWord, fun s inside => (isMember s inside).inWord⟩

theorem WellFormed.unmarked {c : Char} {kind : TokenKind} (wellFormed : WellFormed p)
    (isMark : Text.IsMark c kind) : ∀ segment ∈ p, c ∉ segment.name.toList :=
  fun segment inside => Text.not_mem_of_inWord isMark.outside.1 (wellFormed.inWord segment inside)

end Path

namespace Token

def Follow (afterDot : Bool) (ts : List Token) : Prop :=
  AreLexemes afterDot (ts.map kindAndLexeme)

variable {afterDot : Bool} {t : Token} {us : List Token} {kind : TokenKind}

theorem follow_cons (isKind : t.kind = kind) :
    Follow afterDot (t :: us) ↔ IsLexeme afterDot kind t.lexeme ∧ Follow (kind == .dot) us := by
  subst isKind
  rfl

theorem isQuotable_of_isIdentifier {name : String} (isIdentifier : IsIdentifier name) :
    IsQuotable name :=
  Text.not_mem_of_inWord Text.isIdentifierChar_quote isIdentifier.inWord

end Token

namespace Grammar

open Token

variable {α : Type} {ts us : List Token} {afterDot : Bool} {Item : List Token → α → Prop}
  {Holds : α → Prop}

/-- Where items stand in a text, they have a property, and what follows follows no dot. -/
def Yields (Item : List Token → α → Prop) (Holds : α → Prop) : Prop :=
  ∀ ts a, Item ts a → ∀ us, Follow false (ts ++ us) → Holds a ∧ Follow false us

theorem Separated.yields (each : Yields Item Holds) {as : List α}
    (items : Separated .comma Item ts as) (follow : Follow false (ts ++ us)) :
    (∀ a ∈ as, Holds a) ∧ Follow false us := by
  induction items with
  | one item =>
    obtain ⟨holds, follow⟩ := each _ _ item us follow
    exact ⟨by simpa using holds, follow⟩
  | more item comma _ ih =>
    rw [List.append_assoc] at follow
    obtain ⟨holds, follow⟩ := each _ _ item _ follow
    obtain ⟨others, follow⟩ := ih ((follow_cons comma).1 follow).2
    exact ⟨List.forall_mem_cons.2 ⟨holds, others⟩, follow⟩

theorem CommaList.yields (each : Yields Item Holds) {as : List α} (items : CommaList Item ts as)
    (follow : Follow false (ts ++ us)) : (∀ a ∈ as, Holds a) ∧ Follow false us := by
  cases items with
  | none => exact ⟨by simp, follow⟩
  | some items => exact items.yields each follow

theorem IsSegment.follow {s : Segment} (isSegment : IsSegment ts s)
    (follow : Follow afterDot (ts ++ us)) :
    IsLexeme afterDot .identifier s.name ∧ Follow false us := by
  cases isSegment with
  | member name => exact (follow_cons name).1 follow
  | call name opens closes =>
    obtain ⟨isName, follow⟩ := (follow_cons name).1 follow
    obtain ⟨_, follow⟩ := (follow_cons opens).1 follow
    exact ⟨isName, ((follow_cons closes).1 follow).2⟩

theorem IsPath.follow {p : Path} (isPath : IsPath ts p) (follow : Follow afterDot (ts ++ us)) :
    (∃ s members, p = s :: members ∧ IsLexeme afterDot .identifier s.name ∧
      ∀ member ∈ members, IsMember member.name) ∧ Follow false us := by
  unfold IsPath at isPath
  -- Only the first segment stands behind no dot, so the claim is for both.
  induction isPath generalizing afterDot with
  | one isSegment =>
    obtain ⟨isName, follow⟩ := isSegment.follow follow
    exact ⟨⟨_, [], rfl, isName, by simp⟩, follow⟩
  | more isSegment dot _ ih =>
    rw [List.append_assoc] at follow
    obtain ⟨isName, follow⟩ := isSegment.follow follow
    obtain ⟨⟨s, members, rfl, isMember, others⟩, follow⟩ := ih ((follow_cons dot).1 follow).2
    exact ⟨⟨_, s :: members, rfl, isName, List.forall_mem_cons.2 ⟨isMember, others⟩⟩, follow⟩

theorem IsLiteral.wellFormed {t : Token} {l : Literal} (isLiteral : IsLiteral t l)
    (follow : Follow false (t :: us)) : l.WellFormed (·.isNaN = false) ∧ Follow false us := by
  cases isLiteral with
  | string kind => exact (follow_cons kind).1 follow
  | number kind reads =>
    obtain ⟨⟨⟨_, _, isNumber⟩, _⟩, follow⟩ := (follow_cons kind).1 follow
    exact ⟨Literal.wellFormed_of_ofNumber isNumber reads, follow⟩
  | boolean kind | null kind | undefined kind => exact ⟨trivial, ((follow_cons kind).1 follow).2⟩

theorem IsEntry.yields {Value : List Token → Expression → Prop}
    {Holds : Expression → Prop} (each : Yields Value Holds) :
    Yields (IsEntry Value) fun entry => IsQuotable entry.1 ∧ Holds entry.2 := by
  intro ts entry isEntry us follow
  cases isEntry with
  | mk key colon value =>
    obtain ⟨isKey, follow⟩ : IsQuotable _ ∧ Follow false _ := by
      rcases key with isString | isName
      · exact (follow_cons isString).1 follow
      · obtain ⟨isName, follow⟩ := (follow_cons isName).1 follow
        exact ⟨isQuotable_of_isIdentifier isName, follow⟩
    obtain ⟨holds, follow⟩ := each _ _ value us ((follow_cons colon).1 follow).2
    exact ⟨⟨isKey, holds⟩, follow⟩

theorem IsValue.yields : Yields IsValue (Expression.WellFormed (·.isNaN = false)) := by
  intro ts value isValue
  apply isValue.inductionOn
    (motive := fun ts value => ∀ us, Follow false (ts ++ us) →
      value.WellFormed (·.isNaN = false) ∧ Follow false us)
  · intro t l isLiteral us follow
    obtain ⟨wellFormed, follow⟩ := isLiteral.wellFormed follow
    exact ⟨.literal wellFormed, follow⟩
  · intro ts p isPath us follow
    obtain ⟨⟨s, members, rfl, isName, others⟩, follow⟩ := isPath.follow follow
    exact ⟨.path ⟨isName, others⟩, follow⟩
  · intro o c ts values opens items closes us follow
    rw [List.cons_append, List.append_assoc] at follow
    have each : Yields (fun ts value => IsValue ts value ∧ _)
        (Expression.WellFormed (·.isNaN = false)) := fun ts value item => item.2
    obtain ⟨all, follow⟩ := items.yields each ((follow_cons opens).1 follow).2
    exact ⟨.array all, ((follow_cons closes).1 follow).2⟩
  · intro o c ts values opens entries closes us follow
    rw [List.cons_append, List.append_assoc] at follow
    have each : Yields (fun ts value => IsValue ts value ∧ _)
        (Expression.WellFormed (·.isNaN = false)) := fun ts value item => item.2
    obtain ⟨all, follow⟩ := entries.yields (IsEntry.yields each) ((follow_cons opens).1 follow).2
    exact ⟨.object (fun entry member => (all entry member).1) fun entry member =>
      (all entry member).2, ((follow_cons closes).1 follow).2⟩

theorem IsBinding.yields : Yields IsBinding (Binding.WellFormed (·.isNaN = false)) := by
  intro ts b isBinding us follow
  cases isBinding with
  | mk name colon isValue =>
    obtain ⟨isName, follow⟩ := (follow_cons name).1 follow
    obtain ⟨wellFormed, follow⟩ := isValue.yields _ _ us ((follow_cons colon).1 follow).2
    exact ⟨⟨isName, wellFormed⟩, follow⟩

end Grammar

open Grammar

theorem wellFormed_of_accepted {rules : Rules} {text : String} {bindings : List Binding}
    (accepted : readBindings rules text = .ok bindings) :
    ∀ b ∈ bindings, b.WellFormed (·.isNaN = false) := by
  obtain ⟨tokens, scanned, parsed⟩ := exists_tokens_of_readBindings accepted
  obtain ⟨raw, isBindings, _, added⟩ := Parser.parse_eq_ok_iff.1 parsed
  have follow : Token.Follow false (tokens ++ []) := by
    rw [List.append_nil]
    exact Token.areLexemes_of_scanFrom scanned
  obtain ⟨all, _⟩ := CommaList.yields IsBinding.yields isBindings follow
  intro b member
  rcases Parser.mem_of_foldlM_add added b member with none | member
  · cases none
  · exact all b member

/-- Names, paths, strings and floats that are read could have been written down. -/
theorem wellFormed_of_readBindings {rules : Rules} {text : String} {bindings : List Binding}
    (accepted : readBindings rules text = .ok bindings) :
    ∀ b ∈ bindings, IsIdentifier b.name ∧ ∀ e : Expression, e.Within b.value →
      (∀ p, e = .path p →
        (∃ first members, p = first :: members ∧ IsIdentifier first.name ∧
          ∀ member ∈ members, IsMember member.name) ∧
        ∀ segment ∈ p, '.' ∉ segment.name.toList ∧ '(' ∉ segment.name.toList ∧
          ')' ∉ segment.name.toList) ∧
      (∀ s, e = .literal (.string s) → '"' ∉ s.toList) ∧
      (∀ x, e = .literal (.float x) → x.isNaN = false) ∧
      ∀ entries, e = .object entries → ∀ entry ∈ entries, '"' ∉ entry.1.toList := by
  intro b member
  obtain ⟨isName, value⟩ := wellFormed_of_accepted accepted b member
  refine ⟨isName, fun e within => ?_⟩
  have inner := value.within within
  refine ⟨?_, ?_, ?_, ?_⟩
  · rintro p rfl
    cases inner with
    | path wellFormed =>
      constructor
      · cases p with
        | nil => cases wellFormed
        | cons first members => exact ⟨first, members, rfl, wellFormed⟩
      · intro segment inside
        exact ⟨wellFormed.unmarked (rfl : Text.IsMark '.' .dot) segment inside,
          wellFormed.unmarked (rfl : Text.IsMark '(' .leftParen) segment inside,
          wellFormed.unmarked (rfl : Text.IsMark ')' .rightParen) segment inside⟩
  · rintro s rfl
    cases inner with
    | literal isQuotable => exact isQuotable
  · rintro x rfl
    cases inner with
    | literal isNumber => exact isNumber
  · rintro entries rfl
    cases inner with
    | object keys => exact keys

theorem members_of_nested_path :
    let p : Path := [⟨"b", false⟩, ⟨"1", false⟩, ⟨"true", true⟩]
    let bindings : List Binding :=
      [⟨"$a", .array [.object [("k", .path p)], .literal (.string "1.5")], ⟨1, 1, 0⟩⟩]
    readBindings .default "$a: [\x7bk: b.1.true()\x7d, \"1.5\"]" = .ok bindings ∧
      IsIdentifier "$a" ∧ IsIdentifier "b" ∧ IsMember "1" ∧ IsMember "true" ∧
      '"' ∉ "k".toList ∧ '"' ∉ "1.5".toList := by
  intro p bindings
  have scanned : Token.scan "$a: [\x7bk: b.1.true()\x7d, \"1.5\"]" =
      .ok [⟨.identifier, "$a", ⟨1, 1, 0⟩⟩, ⟨.colon, ":", ⟨1, 3, 2⟩⟩,
        ⟨.leftBracket, "[", ⟨1, 5, 4⟩⟩, ⟨.leftBrace, "\x7b", ⟨1, 6, 5⟩⟩,
        ⟨.identifier, "k", ⟨1, 7, 6⟩⟩, ⟨.colon, ":", ⟨1, 8, 7⟩⟩,
        ⟨.identifier, "b", ⟨1, 10, 9⟩⟩, ⟨.dot, ".", ⟨1, 11, 10⟩⟩,
        ⟨.identifier, "1", ⟨1, 12, 11⟩⟩, ⟨.dot, ".", ⟨1, 13, 12⟩⟩,
        ⟨.identifier, "true", ⟨1, 14, 13⟩⟩, ⟨.leftParen, "(", ⟨1, 18, 17⟩⟩,
        ⟨.rightParen, ")", ⟨1, 19, 18⟩⟩, ⟨.rightBrace, "\x7d", ⟨1, 20, 19⟩⟩,
        ⟨.comma, ",", ⟨1, 21, 20⟩⟩, ⟨.string, "1.5", ⟨1, 23, 22⟩⟩,
        ⟨.rightBracket, "]", ⟨1, 28, 27⟩⟩] := by decide +kernel
  have accepted : readBindings .default "$a: [\x7bk: b.1.true()\x7d, \"1.5\"]" = .ok bindings :=
    readBindings_of_scan _ scanned
  obtain ⟨isName, each⟩ := wellFormed_of_readBindings accepted _ List.mem_cons_self
  have object := each (.object [("k", .path p)]) (.item List.mem_cons_self .self)
  have string := each (.literal (.string "1.5")) (.item (by simp) .self)
  have path := each (.path p) (.item List.mem_cons_self (.entry List.mem_cons_self .self))
  obtain ⟨⟨first, members, same, isFirst, areMembers⟩, _⟩ := path.1 p rfl
  obtain ⟨rfl, rfl⟩ := List.cons.inj same
  exact ⟨accepted, isName, isFirst, areMembers ⟨"1", false⟩ (by simp),
    areMembers ⟨"true", true⟩ (by simp), object.2.2.2 _ rfl ("k", .path p) List.mem_cons_self,
    string.2.1 _ rfl⟩

end Bindlang
