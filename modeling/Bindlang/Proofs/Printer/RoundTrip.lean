import Bindlang.Binding
import Bindlang.Proofs.Decimal.WrittenNumbers
import Bindlang.Proofs.Parser.Completeness
import Bindlang.Proofs.Token.Spelling

namespace Bindlang

open Text

def keywords : List String := ["true", "false", "null", "undefined"]

/-- A name that can stand anywhere in a binding string. -/
structure IsIdentifier (name : String) : Prop where
  begins : name.toList.head?.any isIdentifierStart = true
  inWord : name.toList.all isIdentifierChar = true
  notKeyword : name ∉ keywords

/-- A name that can stand behind a dot, where numbers and keywords are names, too. -/
structure IsMember (name : String) : Prop where
  notEmpty : name ≠ ""
  inWord : name.toList.all isIdentifierChar = true

def IsQuotable (s : String) : Prop :=
  '"' ∉ s.toList

/-- The literals with a text, where the floats that have one are those that fit. -/
def Literal.WellFormed (Fits : Float → Prop) : Literal → Prop
  | .string s => IsQuotable s
  | .float x => Fits x
  | _ => True

def Path.WellFormed : Path → Prop
  | [] => False
  | s :: more => IsIdentifier s.name ∧ ∀ member ∈ more, IsMember member.name

inductive Expression.WellFormed (Fits : Float → Prop) : Expression → Prop
  | literal {l : Literal} (literal : l.WellFormed Fits) : WellFormed Fits (.literal l)
  | array {items : List Expression} (each : ∀ item ∈ items, WellFormed Fits item) :
      WellFormed Fits (.array items)
  | object {entries : List (String × Expression)} (keys : ∀ entry ∈ entries, IsQuotable entry.1)
      (values : ∀ entry ∈ entries, WellFormed Fits entry.2) : WellFormed Fits (.object entries)
  | path {p : Path} (path : Path.WellFormed p) : WellFormed Fits (.path p)

structure Binding.WellFormed (Fits : Float → Prop) (b : Binding) : Prop where
  name : IsIdentifier b.name
  value : b.value.WellFormed Fits

namespace Token

open Lexeme Grammar NumberText

variable {afterDot : Bool} {text chars : List Char} {kind : TokenKind} {Rest : List Char → Prop}
  {Holds : List Token → Prop}

theorem spelled_of_isMember {name : String} (isMember : IsMember name) :
    Spelled true .identifier name.toList := by
  have notEmpty : name.toList ≠ [] := by simp [isMember.notEmpty]
  exact .member notEmpty (List.all_eq_true.1 isMember.inWord)

theorem spelled_word (begins : text.head?.any isIdentifierStart = true)
    (inWord : text.all isIdentifierChar = true) : Spelled false (.ofWord text) text := by
  cases text with
  | nil => cases begins
  | cons c more =>
    rw [List.all_cons, Bool.and_eq_true] at inWord
    exact .word begins (List.all_eq_true.1 inWord.2)

theorem ofWord_of_not_keyword {name : String} (notKeyword : name ∉ keywords) :
    TokenKind.ofWord name.toList = .identifier := by
  have differs : ∀ keyword ∈ keywords, name.toList ≠ keyword.toList := by
    intro keyword member same
    rw [String.toList_inj.1 same] at notKeyword
    exact notKeyword member
  have notTrue := differs "true" (by decide)
  have notFalse := differs "false" (by decide)
  have notNull := differs "null" (by decide)
  have notUndefined := differs "undefined" (by decide)
  rw [TokenKind.ofWord, if_neg (not_or.2 ⟨notTrue, notFalse⟩), if_neg notNull, if_neg notUndefined]

theorem spelled_of_isIdentifier {name : String} (isIdentifier : IsIdentifier name) :
    Spelled false .identifier name.toList := by
  have spelled := spelled_word isIdentifier.begins isIdentifier.inWord
  rwa [ofWord_of_not_keyword isIdentifier.notKeyword] at spelled

theorem spelled_keyword (word : String) (isKeyword : word ∈ keywords) :
    Spelled false (.ofWord word.toList) word.toList := by
  have begins : ∀ word ∈ keywords, word.toList.head?.any isIdentifierStart = true := by
    decide +kernel
  have inWord : ∀ word ∈ keywords, word.toList.all isIdentifierChar = true := by decide +kernel
  exact spelled_word (begins word isKeyword) (inWord word isKeyword)

theorem lexes_segment {s : Segment} (spelled : Spelled afterDot .identifier s.name.toList) :
    Lexes afterDot s.chars false Apart (IsSegment · s) := by
  obtain ⟨name, invoked⟩ := s
  have lexesName := lexes_token spelled
  cases invoked with
  | false =>
    refine lexesName.imp (fun _ apart => apart) ?_
    rintro ts ⟨t, rfl, isName, same⟩
    have segment := IsSegment.member isName
    rwa [same, String.ofList_toList] at segment
  | true =>
    have closes := lexes_mark false (rfl : IsMark ')' .rightParen)
    have call := closes.cons_mark false (rfl : IsMark '(' .leftParen) rfl
    refine lexesName.append (call.imp (fun _ _ => trivial) fun _ both => both) (fun rest _ => ?_) ?_
    · exact (behindValue_mark (rfl : IsMark '(' .leftParen) (by decide) _).1
    · rintro _ _ ⟨t, rfl, isName, same⟩ ⟨l, _, rfl, opens, r, rfl, closes⟩
      have segment := IsSegment.call isName opens closes
      rwa [same, String.ofList_toList] at segment

theorem lexes_path {s : Segment} {members : List Segment}
    (spelled : Spelled afterDot .identifier s.name.toList)
    (each : ∀ member ∈ members, IsMember member.name) :
    Lexes afterDot (Path.chars (s :: members)) false BehindValue (IsPath · (s :: members)) := by
  have lexesSegment := lexes_segment spelled
  -- Only the first segment stands behind no dot, so the claim is for both.
  induction members generalizing s afterDot with
  | nil =>
    rw [Path.chars, List.map_singleton, List.intercalate_singleton]
    exact lexesSegment.imp (fun _ behind => behind.1) fun _ segment => .one segment
  | cons t more ih =>
    obtain ⟨isMember, others⟩ := List.forall_mem_cons.1 each
    have spelledNext := spelled_of_isMember isMember
    have lexesMore := ih spelledNext others (lexes_segment spelledNext)
    have isMark : IsMark '.' .dot := rfl
    have dot := lexesMore.cons_mark false isMark rfl
    have split : Path.chars (s :: t :: more) = s.chars ++ '.' :: Path.chars (t :: more) := by
      simp [Path.chars]
    rw [split]
    refine lexesSegment.append dot (fun rest _ => ?_) ?_
    · intro c first
      cases first
      exact isMark.outside.1
    · rintro _ _ segment ⟨d, us, rfl, isDot, path⟩
      exact .more segment isDot path

section Lists

variable {α : Type} {chars : α → List Char} {Item : List Token → α → Prop} {items : List α}

theorem lexes_separated {gap : List Char} (isBlank : Blank gap) (notEmpty : items ≠ [])
    (each : ∀ item ∈ items, Lexes false (chars item) false BehindValue (Item · item)) :
    Lexes false ((',' :: gap).intercalate (items.map chars)) false BehindValue
      (Separated .comma Item · items) := by
  induction items with
  | nil => exact absurd rfl notEmpty
  | cons a more ih =>
    obtain ⟨first, others⟩ := List.forall_mem_cons.1 each
    cases more with
    | nil =>
      rw [List.map_singleton, List.intercalate_singleton]
      exact first.imp (fun _ behind => behind) fun _ item => .one item
    | cons b more =>
      have rest := (ih (List.cons_ne_nil b more) others).blank isBlank
      have comma := rest.cons_mark false (rfl : IsMark ',' .comma) rfl
      have split : (',' :: gap).intercalate ((a :: b :: more).map chars) =
          chars a ++ ',' :: (gap ++ (',' :: gap).intercalate ((b :: more).map chars)) := by
        simp
      rw [split]
      refine first.append comma (fun _ _ => ?_) ?_
      · exact behindValue_mark (rfl : IsMark ',' .comma) (by decide) _
      · rintro _ _ item ⟨m, us, rfl, isComma, separated⟩
        exact .more item isComma separated

theorem lexes_emptyList {gap : List Char} (isBlank : Blank gap) :
    Lexes false gap false BehindValue (CommaList Item · []) := by
  have nothing : Lexes false [] false BehindValue (CommaList Item · []) :=
    lexes_nothing.imp (fun _ behind => behind) fun _ nothing => nothing ▸ .none
  simpa using nothing.blank isBlank

theorem lexes_list {gap : List Char} (isBlank : Blank gap)
    (each : ∀ item ∈ items, Lexes false (chars item) false BehindValue (Item · item)) :
    Lexes false ((',' :: gap).intercalate (items.map chars)) false BehindValue
      (CommaList Item · items) := by
  cases items with
  | nil => exact lexes_emptyList blank_nil
  | cons a more =>
    exact (lexes_separated isBlank (List.cons_ne_nil a more) each).imp (fun _ behind => behind)
      fun _ separated => .some separated

theorem lexes_commaList
    (each : ∀ item ∈ items, Lexes false (chars item) false BehindValue (Item · item)) :
    Lexes false (separated (items.map chars)) false BehindValue (CommaList Item · items) :=
  lexes_list blank_space each

theorem lexes_container {o c : Char} {opening closing : TokenKind} (opens : IsMark o opening)
    (closes : IsMark c closing) (openingNotDot : opening ≠ .dot) (closingNotDot : closing ≠ .dot)
    (list : Lexes false text false BehindValue (CommaList Item · items)) :
    Lexes false (o :: (text ++ [c])) false (fun _ => True)
      (fun ts => ∃ t us u, ts = t :: (us ++ [u]) ∧ t.kind = opening ∧ CommaList Item us items ∧
        u.kind = closing) := by
  have inside := list.append_mark closes closingNotDot
  refine (inside.cons_mark false opens (beq_false_of_ne openingNotDot)).imp (fun _ _ => trivial) ?_
  rintro _ ⟨t, _, rfl, isOpening, us, u, rfl, list, isClosing⟩
  exact ⟨t, us, u, rfl, isOpening, list, isClosing⟩

end Lists

theorem lexes_array {es : List Expression}
    (list : Lexes false text false BehindValue (CommaList IsValue · es)) :
    Lexes false ('[' :: (text ++ [']'])) false BehindValue (IsValue · (.array es)) := by
  refine (lexes_container (rfl : IsMark '[' .leftBracket) (rfl : IsMark ']' .rightBracket)
    (by decide) (by decide) list).imp (fun _ _ => trivial) ?_
  rintro _ ⟨o, ts, c, rfl, opens, items, closes⟩
  exact .array opens items closes

theorem lexes_object {es : List (String × Expression)}
    (list : Lexes false text false BehindValue (CommaList (IsEntry IsValue) · es)) :
    Lexes false ('{' :: (text ++ ['}'])) false BehindValue (IsValue · (.object es)) := by
  refine (lexes_container (rfl : IsMark '{' .leftBrace) (rfl : IsMark '}' .rightBrace)
    (by decide) (by decide) list).imp (fun _ _ => trivial) ?_
  rintro _ ⟨o, ts, c, rfl, opens, entries, closes⟩
  exact .object opens entries closes

theorem lexes_label {gap : List Char} (isBlank : Blank gap) (spelled : Spelled false kind chars)
    (notDot : kind ≠ .dot) (value : Lexes false text false Rest Holds) :
    Lexes false (sourceOf kind chars ++ (gap ++ ':' :: text)) false Rest
      (fun ts => ∃ k c us, ts = k :: c :: us ∧ k.kind = kind ∧ k.lexeme = .ofList chars ∧
        c.kind = .colon ∧ Holds us) := by
  have label := lexes_token spelled
  rw [beq_false_of_ne notDot] at label
  have colon := value.cons_mark false (rfl : IsMark ':' .colon) rfl
  refine label.append (colon.blank isBlank) (fun rest _ => ?_) ?_
  · have behind : BehindValue (gap ++ (':' :: (text ++ rest))) :=
      behindValue_blank isBlank fun _ => behindValue_mark (rfl : IsMark ':' .colon) (by decide) _
    rw [List.append_assoc]
    exact behind.ends kind
  · rintro _ _ ⟨k, rfl, isKind, same⟩ ⟨c, us, rfl, isColon, holds⟩
    exact ⟨k, c, us, rfl, isKind, same, isColon, holds⟩

theorem lexes_labelled (spelled : Spelled false kind chars) (notDot : kind ≠ .dot)
    (value : Lexes false text false Rest Holds) :
    Lexes false (sourceOf kind chars ++ ':' :: ' ' :: text) false Rest
      (fun ts => ∃ k c us, ts = k :: c :: us ∧ k.kind = kind ∧ k.lexeme = .ofList chars ∧
        c.kind = .colon ∧ Holds us) :=
  lexes_label blank_nil spelled notDot (value.blank blank_space)

theorem lexes_number {negative : Bool} {d : Decimal} {l : Literal}
    (isNumber : IsNumber chars negative d) (reads : Literal.ofNumber? (.ofList chars) = some l) :
    Lexes false chars false BehindValue (IsValue · (.literal l)) := by
  have spelled : Spelled false .number chars := .number isNumber (fun behind => nomatch behind)
  refine (lexes_token spelled).imp (fun _ behind => behind) ?_
  rintro _ ⟨t, rfl, isKind, same⟩
  exact .literal (.number isKind (same ▸ reads))

theorem lexes_keyword (word : String) (kind : TokenKind) {l : Literal}
    (isKeyword : word ∈ keywords) (isKind : TokenKind.ofWord word.toList = kind)
    (notDot : kind ≠ .dot) (literal : ∀ t : Token, t.kind = kind → t.lexeme = word → IsLiteral t l) :
    Lexes false word.toList false BehindValue (IsValue · (.literal l)) := by
  have notString : kind ≠ .string := isKind ▸ ofWord_ne rfl _
  have lexes := lexes_token (spelled_keyword word isKeyword)
  rw [isKind, sourceOf, if_neg notString, beq_false_of_ne notDot] at lexes
  refine lexes.imp (fun _ behind => behind.ends kind) ?_
  rintro _ ⟨t, rfl, isKind, same⟩
  rw [String.ofList_toList] at same
  exact .literal (literal t isKind same)

theorem lexes_literal {l : Literal} (wellFormed : l.WellFormed (·.isFinite)) :
    Lexes false l.chars false BehindValue (IsValue · (.literal l)) := by
  cases l with
  | string s =>
    refine (lexes_token (.string wellFormed)).imp (fun _ behind => behind.ends _) ?_
    rintro _ ⟨t, rfl, isKind, same⟩
    have literal := IsLiteral.string isKind
    rw [same, String.ofList_toList] at literal
    exact .literal literal
  | integer n => exact lexes_number (isNumber_writeInteger n.toInt) (ofNumber_writeInteger n)
  | float x =>
    obtain ⟨_, _, _, isNumber, _⟩ := FloatFormat.isNumber_chars .expression wellFormed
    exact lexes_number isNumber (FloatFormat.ofNumber_chars .expression wellFormed)
  | boolean b =>
    cases b with
    | true =>
      refine lexes_keyword "true" .boolean (by decide) (by decide) (by decide) ?_
      intro t isKind same
      have literal := IsLiteral.boolean isKind
      rwa [same] at literal
    | false =>
      refine lexes_keyword "false" .boolean (by decide) (by decide) (by decide) ?_
      intro t isKind same
      have literal := IsLiteral.boolean isKind
      rwa [same] at literal
  | null =>
    exact lexes_keyword "null" .null (by decide) (by decide) (by decide)
      fun _ isKind _ => .null isKind
  | undefined =>
    exact lexes_keyword "undefined" .undefined (by decide) (by decide) (by decide)
      fun _ isKind _ => .undefined isKind

theorem lexes_entry {key : String} {e : Expression} (isQuotable : IsQuotable key)
    (value : Lexes false text false BehindValue (IsValue · e)) :
    Lexes false (quoted key ++ ':' :: ' ' :: text) false BehindValue
      (IsEntry IsValue · (key, e)) := by
  refine (lexes_labelled (.string isQuotable) (by decide) value).imp (fun _ behind => behind) ?_
  rintro _ ⟨k, c, us, rfl, isString, same, isColon, isValue⟩
  have entry := IsEntry.mk (.inl isString) isColon isValue
  rwa [same, String.ofList_toList] at entry

/-- A well-formed expression's text is that of tokens from which the grammar derives it. -/
theorem lexes_value {e : Expression} (wellFormed : e.WellFormed (·.isFinite)) :
    Lexes false e.chars false BehindValue (IsValue · e) := by
  induction wellFormed with
  | literal literal => exact lexes_literal literal
  | array _ ih =>
    rw [Expression.chars, Expression.itemTexts_eq_map]
    exact lexes_array (lexes_commaList ih)
  | object keys _ ih =>
    rw [Expression.chars, Expression.entryTexts_eq_map]
    exact lexes_object (lexes_commaList fun entry member =>
      lexes_entry (keys entry member) (ih entry member))
  | @path p path =>
    cases p with
    | nil => exact absurd path id
    | cons s members =>
      rw [Expression.chars]
      exact (lexes_path (spelled_of_isIdentifier path.1) path.2).imp (fun _ behind => behind)
        fun _ isPath => .path isPath

def IsBindingAs (ts : List Token) (b : Binding) : Prop :=
  ∃ position, IsBinding ts ⟨b.name, b.value, position⟩

theorem lexes_named {name : String} {e : Expression} (isIdentifier : IsIdentifier name)
    (value : Lexes false text false BehindValue (IsValue · e)) (p : Position) :
    Lexes false (name.toList ++ ':' :: ' ' :: text) false BehindValue
      (IsBindingAs · ⟨name, e, p⟩) := by
  have label := spelled_of_isIdentifier isIdentifier
  refine (lexes_labelled label (by decide) value).imp (fun _ behind => behind) ?_
  rintro _ ⟨n, c, us, rfl, isName, same, isColon, isValue⟩
  have binding := IsBinding.mk isName isColon isValue
  rw [same, String.ofList_toList] at binding
  exact ⟨n.position, binding⟩

theorem lexes_binding {b : Binding} (wellFormed : b.WellFormed (·.isFinite)) :
    Lexes false b.chars false BehindValue (IsBindingAs · b) :=
  lexes_named wellFormed.name (lexes_value wellFormed.value) b.position

end Token

def Binding.parts (b : Binding) : String × Expression :=
  (b.name, b.value)

open Grammar

theorem exists_separated {ts : List Token} {bs : List Binding}
    (separated : Separated .comma Token.IsBindingAs ts bs) :
    ∃ raw, Separated .comma IsBinding ts raw ∧ raw.map Binding.parts = bs.map Binding.parts := by
  induction separated with
  | one binding =>
    obtain ⟨position, binding⟩ := binding
    exact ⟨_, .one binding, rfl⟩
  | more binding comma _ ih =>
    obtain ⟨position, binding⟩ := binding
    obtain ⟨raw, separated, same⟩ := ih
    exact ⟨_, .more binding comma separated, by simp [same, Binding.parts]⟩

theorem exists_isBindings {ts : List Token} {bs : List Binding}
    (list : CommaList Token.IsBindingAs ts bs) :
    ∃ raw, IsBindings ts raw ∧ raw.map Binding.parts = bs.map Binding.parts := by
  cases list with
  | none => exact ⟨[], .none, rfl⟩
  | some separated =>
    obtain ⟨raw, separated, same⟩ := exists_separated separated
    exact ⟨raw, .some separated, same⟩

theorem names_of_parts (bs : List Binding) :
    bs.map Binding.name = (bs.map Binding.parts).map Prod.fst := by
  rw [List.map_map]
  rfl

theorem depth_le_of_parts {raw bs : List Binding} {n : Nat}
    (same : raw.map Binding.parts = bs.map Binding.parts) (room : ∀ b ∈ bs, b.value.depth ≤ n) :
    ∀ b ∈ raw, b.value.depth ≤ n := by
  intro b member
  have part : b.parts ∈ bs.map Binding.parts := same ▸ List.mem_map_of_mem member
  obtain ⟨other, isMember, equal⟩ := List.mem_map.1 part
  have value : other.value = b.value := congrArg Prod.snd equal
  exact value ▸ room other isMember

theorem toList_texts (bs : List Binding) :
    (", ".intercalate (bs.map Binding.text)).toList = separated (bs.map Binding.chars) := by
  have chars : Binding.chars = String.toList ∘ Binding.text := by
    funext b
    rw [Function.comp_apply, Binding.text, String.toList_ofList]
  rw [String.toList_intercalate, List.map_map, separated, ← chars]
  rfl

/-- Reading undoes printing: well-formed bindings are read back from their texts. -/
theorem readBindings_of_text (rules : Rules) {bs : List Binding}
    (wellFormed : ∀ b ∈ bs, b.WellFormed (·.isFinite)) (distinct : (bs.map Binding.name).Nodup)
    (room : ∀ b ∈ bs, b.value.depth ≤ rules.maxDepth) :
    ∃ read, readBindings rules (", ".intercalate (bs.map Binding.text)) = .ok read ∧
      read.map Binding.parts = bs.map Binding.parts := by
  have lexes := Token.lexes_commaList fun b member => Token.lexes_binding (wellFormed b member)
  obtain ⟨ts, p', list, scanned⟩ := lexes .start [] ⟨by simp [Lexeme.Apart], by simp⟩
  obtain ⟨raw, isBindings, same⟩ := exists_isBindings list
  have tokens : Token.scan (", ".intercalate (bs.map Binding.text)) = .ok ts := by
    rw [List.append_nil, ← toList_texts, Token.scanFrom_nil] at scanned
    rw [Token.scan, scanned, Except.map, List.append_nil]
  have distinctRaw : (raw.map Binding.name).Nodup := by
    rwa [names_of_parts, same, ← names_of_parts]
  have parsed := Parser.parse_of_distinct isBindings (depth_le_of_parts same room) distinctRaw
  refine ⟨raw, ?_, same⟩
  rw [readBindings, tokens]
  change (parse rules ts).mapError SyntaxError.grammatical = _
  rw [parsed]
  rfl

def nestedBindings : List Binding :=
  [⟨"a", .array [.literal (.integer Int64.minValue), .object [("k, [", .path
      [⟨"x", true⟩, ⟨"2", false⟩, ⟨"true", false⟩])]], .start⟩,
    ⟨"$b", .literal (.float 1e-7), .start⟩]

theorem wellFormed_nestedBindings : ∀ b ∈ nestedBindings, b.WellFormed (·.isFinite) := by
  have call : Path.WellFormed [⟨"x", true⟩, ⟨"2", false⟩, ⟨"true", false⟩] := by
    refine ⟨⟨by decide +kernel, by decide +kernel, by decide⟩, fun member isMember => ?_⟩
    simp only [List.mem_cons, List.not_mem_nil, or_false] at isMember
    rcases isMember with rfl | rfl <;> exact ⟨by decide, by decide +kernel⟩
  have object : Expression.WellFormed (·.isFinite) (.object [("k, [", .path
      [⟨"x", true⟩, ⟨"2", false⟩, ⟨"true", false⟩])]) := by
    refine .object ?_ ?_
    · simp only [List.mem_singleton, forall_eq, IsQuotable]
      decide
    · simp only [List.mem_singleton, forall_eq]
      exact .path call
  simp only [nestedBindings, List.mem_cons, List.not_mem_nil, or_false, forall_eq_or_imp, forall_eq]
  refine ⟨⟨⟨by decide +kernel, by decide +kernel, by decide⟩, .array ?_⟩,
    ⟨by decide +kernel, by decide +kernel, by decide⟩, .literal ?_⟩
  · simp only [List.mem_cons, List.not_mem_nil, or_false, forall_eq_or_imp, forall_eq]
    exact ⟨.literal trivial, object⟩
  · change Float.isFinite _ = true
    decide +kernel

theorem nestedBindings_are_read_back :
    (∀ b ∈ nestedBindings, b.WellFormed (·.isFinite)) ∧ (nestedBindings.map Binding.name).Nodup ∧
      (∀ b ∈ nestedBindings, b.value.depth ≤ 2) ∧
      ∃ read, readBindings ⟨.reject, 2⟩ (", ".intercalate (nestedBindings.map Binding.text)) =
          .ok read ∧
        read.map Binding.parts = nestedBindings.map Binding.parts :=
  have distinct : (nestedBindings.map Binding.name).Nodup := by decide
  have room : ∀ b ∈ nestedBindings, b.value.depth ≤ 2 := by
    simp [nestedBindings, Expression.depth, Expression.depthOfItems, Expression.depthOfEntries]
  ⟨wellFormed_nestedBindings, distinct, room,
    readBindings_of_text ⟨.reject, 2⟩ wellFormed_nestedBindings distinct room⟩

end Bindlang
