import Bindlang.Proofs.Accessor.Hosts
import Bindlang.Proofs.Parser.DuplicatePolicies
import Bindlang.Proofs.Parser.WellFormedness
import Bindlang.Proofs.Path.Text

namespace Bindlang

open Text

theorem Segment.plain_chars {segment : Segment}
    (inWord : segment.name.toList.all isIdentifierChar = true) :
    ∀ c ∈ segment.chars, isWhitespace c = false := by
  have inName : ∀ c ∈ segment.name.toList, isWhitespace c = false :=
    fun c member => isWhitespace_of_isIdentifierChar (List.all_eq_true.1 inWord c member)
  unfold chars
  split
  · have opens : IsMark '(' .leftParen := rfl
    have closes : IsMark ')' .rightParen := rfl
    refine List.forall_mem_append.2 ⟨inName, List.forall_mem_cons.2 ⟨opens.outside.2, ?_⟩⟩
    exact List.forall_mem_singleton.2 closes.outside.2
  · exact inName

namespace Path

variable {p : Path}

theorem chars_cons (segment : Segment) {path : Path} (more : path ≠ []) :
    chars (segment :: path) = segment.chars ++ '.' :: chars path := by
  cases path with
  | nil => exact absurd rfl more
  | cons next path => simp [chars, List.intercalate_cons_cons]

theorem plain_chars (inWord : ∀ segment ∈ p, segment.name.toList.all isIdentifierChar = true) :
    ∀ c ∈ p.chars, isWhitespace c = false := by
  induction p with
  | nil => exact List.forall_mem_nil _
  | cons segment path ih =>
    obtain ⟨first, others⟩ := List.forall_mem_cons.1 inWord
    have plain := Segment.plain_chars first
    cases path with
    | nil => simpa [chars] using plain
    | cons next path =>
      rw [chars_cons segment (List.cons_ne_nil next path)]
      have dot : IsMark '.' .dot := rfl
      exact List.forall_mem_append.2 ⟨plain, List.forall_mem_cons.2 ⟨dot.outside.2, ih others⟩⟩

theorem ofText_chars (wellFormed : WellFormed p) : ofText (.ofList p.chars) = p := by
  have inWord := wellFormed.inWord
  refine ofText_chars_iff.2 ⟨wellFormed.ne_nil, ?_, ?_⟩
  · intro segment member
    have isDot : IsMark '.' .dot := rfl
    exact not_mem_of_inWord isDot.outside.1 (inWord segment member)
  · intro segment member _ call
    have closes : IsMark ')' .rightParen := rfl
    exact not_mem_of_inWord closes.outside.1 (inWord segment member) (call.subset (by simp))

end Path

namespace Token

variable {p : Position} {text : List Char} {ts us : List Token} {afterDot : Bool}

def isVisible (c : Char) : Bool :=
  !isWhitespace c

/-- But for white space the text is that of its tokens. -/
theorem Layout.filter_visible (layout : Layout p text ts) :
    text.filter isVisible = (ts.flatMap source).filter isVisible := by
  have blank : ∀ {blank : List Char}, Blank blank → blank.filter isVisible = [] := by
    intro blank isBlank
    refine List.filter_eq_nil_iff.2 fun c member => ?_
    simp [isVisible, isBlank c member]
  induction layout with
  | blank isBlank => exact blank isBlank
  | token isBlank _ _ _ ih =>
    rw [List.flatMap_cons, List.filter_append, List.filter_append, List.filter_append,
      blank isBlank, ih, List.nil_append]

theorem filter_visible {text : List Char} (plain : ∀ c ∈ text, isWhitespace c = false) :
    text.filter isVisible = text :=
  List.filter_eq_self.2 fun c member => by simp [isVisible, plain c member]

theorem source_of_kind {t : Token} {kind : TokenKind} (isKind : t.kind = kind)
    (notString : kind ≠ .string) : t.source = t.lexeme.toList := by
  subst isKind
  rw [source, Lexeme.sourceOf, if_neg notString]

theorem Follow.exists_isLexeme (follow : Follow afterDot ts) :
    ∀ t ∈ ts, ∃ afterDot, IsLexeme afterDot t.kind t.lexeme := by
  induction ts generalizing afterDot with
  | nil => exact List.forall_mem_nil _
  | cons t ts ih =>
    obtain ⟨isLexeme, others⟩ := follow
    exact List.forall_mem_cons.2 ⟨⟨afterDot, isLexeme⟩, ih others⟩

end Token

namespace Grammar

open Token

variable {ts us : List Token} {afterDot : Bool}

theorem IsSegment.sources {segment : Segment} (isSegment : IsSegment ts segment)
    (follow : Follow afterDot (ts ++ us)) : ts.flatMap source = segment.chars := by
  cases isSegment with
  | member name => simp [source_of_kind name (by decide), Segment.chars]
  | call name opens closes =>
    obtain ⟨_, follow⟩ := (follow_cons name).1 follow
    obtain ⟨isOpening, follow⟩ := (follow_cons opens).1 follow
    obtain ⟨isClosing, _⟩ := (follow_cons closes).1 follow
    change _ = "(" at isOpening
    change _ = ")" at isClosing
    simp [source_of_kind name (by decide), source_of_kind opens (by decide),
      source_of_kind closes (by decide), isOpening, isClosing, Segment.chars]

theorem IsPath.sources {p : Path} (isPath : IsPath ts p) (follow : Follow afterDot (ts ++ us)) :
    ts.flatMap source = p.chars := by
  unfold IsPath at isPath
  induction isPath generalizing afterDot with
  | one isSegment => simp [isSegment.sources follow, Path.chars]
  | @more _ _ _ _ as isSegment dot others ih =>
    rw [List.append_assoc] at follow
    have first := isSegment.sources follow
    obtain ⟨isDot, follow⟩ := (follow_cons dot).1 (isSegment.follow follow).2
    change _ = "." at isDot
    have filled : as ≠ [] := by cases others <;> exact List.cons_ne_nil _ _
    rw [List.flatMap_append, List.flatMap_cons, first, ih follow, source_of_kind dot (by decide), isDot,
      Path.chars_cons _ filled]
    rfl

end Grammar

open Grammar Token

variable {rules : Rules} {text : String} {b : Binding} {p : Path}

theorem Token.kind_ne_comma {position : Position} {ts : List Token}
    (layout : Layout position text.toList ts) (follow : Follow false ts) (noComma : ',' ∉ text.toList) :
    ∀ t ∈ ts, t.kind ≠ .comma := by
  intro t member isComma
  obtain ⟨_, isLexeme⟩ := follow.exists_isLexeme t member
  rw [isComma] at isLexeme
  change _ = "," at isLexeme
  obtain ⟨before, behind, whole, _⟩ := layout.exists_split t member
  rw [source_of_kind isComma (by decide), isLexeme] at whole
  rw [whole] at noComma
  exact noComma (by simp)

theorem Grammar.IsBindings.eq_singleton {ts : List Token} {bindings : List Binding}
    (isBindings : IsBindings ts bindings) (filled : bindings ≠ [])
    (noComma : ∀ t ∈ ts, t.kind ≠ .comma) : ∃ b, bindings = [b] ∧ IsBinding ts b := by
  cases isBindings with
  | none => exact absurd rfl filled
  | some items =>
    cases items with
    | one item => exact ⟨_, rfl, item⟩
    | more _ isMark _ => exact absurd isMark (noComma _ (by simp))

theorem chars_of_readBindings (noBlank : ∀ c ∈ text.toList, isWhitespace c = false)
    (noComma : ',' ∉ text.toList) (isPath : b.value = .path p)
    (accepted : readBindings rules ("a: " ++ text) = .ok [b]) (named : b.name = "a") :
    text.toList = p.chars := by
  obtain ⟨tokens, scanned, parsed⟩ := exists_tokens_of_readBindings accepted
  obtain ⟨raw, isBindings, _, added⟩ := Parser.parse_eq_ok_iff.1 parsed
  have layout := layout_of_scanFrom scanned
  have follow : Follow false tokens := areLexemes_of_scanFrom scanned
  have filled : raw ≠ [] := by
    rintro rfl
    cases added
  have noCommas := kind_ne_comma layout follow (by simpa using noComma)
  obtain ⟨b', rfl, isBinding⟩ := isBindings.eq_singleton filled noCommas
  obtain rfl : b = b' := by
    rcases Parser.mem_of_foldlM_add added b List.mem_cons_self with none | member
    · cases none
    · exact List.mem_singleton.1 member
  cases isBinding with
  | @mk n c ts _ name colon value =>
    obtain rfl := isPath
    change n.lexeme = "a" at named
    obtain ⟨isName, follow⟩ := (follow_cons name).1 follow
    obtain ⟨isColon, follow⟩ := (follow_cons colon).1 follow
    change _ = ":" at isColon
    rw [← List.append_nil ts] at follow
    cases value with
    | path isPath =>
      obtain ⟨⟨s, members, rfl, isIdentifier, isMember⟩, _⟩ := isPath.follow follow
      have wellFormed : Path.WellFormed (s :: members) := ⟨isIdentifier, isMember⟩
      -- Without its blanks the text is the name, the colon and the path, and so are its tokens.
      have whole := layout.filter_visible
      rw [List.flatMap_cons, List.flatMap_cons, source_of_kind name (by decide), named,
        source_of_kind colon (by decide), isColon, isPath.sources follow, String.toList_append,
        List.filter_append, List.filter_append, List.filter_append, filter_visible noBlank,
        filter_visible (Path.plain_chars wellFormed.inWord), ← List.append_assoc] at whole
      have prefixes : "a: ".toList.filter isVisible =
          "a".toList.filter isVisible ++ ":".toList.filter isVisible := by decide +kernel
      rw [prefixes] at whole
      exact List.append_cancel_left whole

/-- Under the name is an accessor that finds what the path of a text finds. -/
def BindingSet.HasPluck (set : BindingSet) (name path : String) (root : Value) : Prop :=
  ∃ a, set.get? name = some a ∧ a.ReadsLike (.ofPath path root) ∧
    a.read? = (Accessor.ofPath path root).read?

theorem Accessor.readsLike_of_path (wellFormed : Path.WellFormed p) (root : Value) :
    (expression (.path p) ⟨root, none⟩).ReadsLike (.ofPath (.ofList p.chars) root) := by
  intro σ host
  rw [ofPath, Path.ofText_chars wellFormed]
  cases p with
  | nil => cases wellFormed
  | cons first others => rfl

theorem BindingSet.hasPluck_of_binding {bindings : List Binding}
    (accepted : readBindings rules text = .ok bindings) (member : b ∈ bindings)
    (isPath : b.value = .path p) (root : Value) :
    (ofBindings bindings ⟨root, none⟩).HasPluck b.name (.ofList p.chars) root := by
  have wellFormed := (wellFormed_of_accepted accepted b member).value
  rw [isPath] at wellFormed
  cases wellFormed with
  | path wellFormed =>
    have found := get_ofBindings (nodup_of_readBindings accepted) member ⟨root, none⟩
    have same := Accessor.readsLike_of_path wellFormed root
    rw [isPath] at found
    exact ⟨_, found, same, same.read_eq⟩

/-- Bound or plucked, a path leads to the same place and calls the same functions. -/
theorem Options.path_bound_as_plucked (options : Options) (root : Value) :
    (∀ text, (∀ c ∈ text.toList, isWhitespace c = false) → ',' ∉ text.toList →
      ∀ b p, options.bindings ("a: " ++ text) = .ok [b] → b.name = "a" → b.value = .path p →
        ∃ set, options.bind ("a: " ++ text) ⟨root, none⟩ = .ok set ∧ set.HasPluck "a" text root) ∧
    ∀ text bindings, options.bindings text = .ok bindings →
      ∃ set, options.bind text ⟨root, none⟩ = .ok set ∧
        ∀ b ∈ bindings, ∀ p, b.value = .path p → set.HasPluck b.name b.value.text root := by
  constructor
  · intro text noBlank noComma b p accepted named isPath
    have same := chars_of_readBindings noBlank noComma isPath accepted named
    have has := BindingSet.hasPluck_of_binding accepted List.mem_cons_self isPath root
    rw [← same, String.ofList_toList, named] at has
    exact ⟨_, bind_of_bindings accepted _, has⟩
  · intro text bindings accepted
    refine ⟨_, bind_of_bindings accepted _, fun b member p isPath => ?_⟩
    have has := BindingSet.hasPluck_of_binding accepted member isPath root
    rwa [isPath]

theorem Options.call_and_number_plucked :
    let p : Path := [⟨"f", true⟩, ⟨"0", false⟩, ⟨"null", false⟩]
    let root := Value.object ⟨0⟩
    (∃ set, default.bind "a: f().0.null" ⟨root, none⟩ = .ok set ∧
      set.HasPluck "a" "f().0.null" root) ∧
    ∃ set, default.bind "a: f ( ) . 0 . null" ⟨root, none⟩ = .ok set ∧
      set.HasPluck "a" (Expression.path p).text root := by
  intro p root
  have scanned : Token.scan "a: f().0.null" = .ok [⟨.identifier, "a", ⟨1, 1, 0⟩⟩,
      ⟨.colon, ":", ⟨1, 2, 1⟩⟩, ⟨.identifier, "f", ⟨1, 4, 3⟩⟩, ⟨.leftParen, "(", ⟨1, 5, 4⟩⟩,
      ⟨.rightParen, ")", ⟨1, 6, 5⟩⟩, ⟨.dot, ".", ⟨1, 7, 6⟩⟩, ⟨.identifier, "0", ⟨1, 8, 7⟩⟩,
      ⟨.dot, ".", ⟨1, 9, 8⟩⟩, ⟨.identifier, "null", ⟨1, 10, 9⟩⟩] := by
    decide +kernel
  have spaced : Token.scan "a: f ( ) . 0 . null" = .ok [⟨.identifier, "a", ⟨1, 1, 0⟩⟩,
      ⟨.colon, ":", ⟨1, 2, 1⟩⟩, ⟨.identifier, "f", ⟨1, 4, 3⟩⟩, ⟨.leftParen, "(", ⟨1, 6, 5⟩⟩,
      ⟨.rightParen, ")", ⟨1, 8, 7⟩⟩, ⟨.dot, ".", ⟨1, 10, 9⟩⟩, ⟨.identifier, "0", ⟨1, 12, 11⟩⟩,
      ⟨.dot, ".", ⟨1, 14, 13⟩⟩, ⟨.identifier, "null", ⟨1, 16, 15⟩⟩] := by
    decide +kernel
  have accepted : default.bindings "a: f().0.null" = .ok [⟨"a", .path p, ⟨1, 1, 0⟩⟩] :=
    readBindings_of_scan _ scanned
  have acceptedSpaced : default.bindings "a: f ( ) . 0 . null" = .ok [⟨"a", .path p, ⟨1, 1, 0⟩⟩] :=
    readBindings_of_scan _ spaced
  obtain ⟨plain, printed⟩ := path_bound_as_plucked default root
  have visible : "f().0.null".toList.all isVisible = true := by decide +kernel
  have noBlank : ∀ c ∈ "f().0.null".toList, isWhitespace c = false :=
    fun c member => by simpa [isVisible] using List.all_eq_true.1 visible c member
  obtain ⟨set, bound, has⟩ := printed _ _ acceptedSpaced
  exact ⟨plain "f().0.null" noBlank (by decide) _ p accepted rfl rfl,
    set, bound, has _ List.mem_cons_self p rfl⟩

end Bindlang
