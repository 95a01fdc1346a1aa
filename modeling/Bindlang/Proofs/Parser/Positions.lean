import Bindlang.Binding
import Bindlang.Proofs.Parser.ErrorCauses
import Bindlang.Proofs.Token.Locality
import Mathlib.Data.List.Induction

namespace Bindlang

namespace Position

structure IsPlaceIn (p : Position) (text : List Char) : Prop where
  inside : p.offset < text.length
  line : p.line = 1 + (text.take p.offset).count '\n'
  column : p.column = 1 + ((text.take p.offset).reverse.takeWhile (· != '\n')).length

theorem start_after (before : List Char) :
    start.after before =
      ⟨1 + before.count '\n', 1 + (before.reverse.takeWhile (· != '\n')).length, before.length⟩ := by
  -- What comes last decides: a line feed begins the column anew.
  induction before using List.reverseRecOn with
  | nil => rfl
  | append_singleton before c ih =>
    rw [after_append, ih, after_cons, after_nil, advance]
    by_cases newline : c = '\n'
    · subst newline
      simp [Nat.add_assoc]
    · simp [newline, Nat.add_assoc, Nat.add_comm 1]

variable {before behind : List Char} {c : Char}

theorem isPlaceIn_of_split : (start.after before).IsPlaceIn (before ++ c :: behind) := by
  rw [start_after]
  refine ⟨?_, ?_, ?_⟩
  · simp
  · simp
  · simp

theorem getElem_of_split : (before ++ c :: behind)[(start.after before).offset]? = some c := by
  simp [start_after]

end Position

namespace LexError

def found : LexError → Char
  | unterminatedString _ => '"'
  | unexpectedCharacter c _ => c

structure PlacedIn (e : LexError) (text : List Char) : Prop where
  place : e.position.IsPlaceIn text
  character : text[e.position.offset]? = some e.found

end LexError

namespace Token

open Lexeme

variable {afterDot : Bool} {c : Char} {rest text : List Char} {fault : Fault} {p : Position}
  {ts : List Token}

theorem exists_split_of_fault (p : Position) (failed : first afterDot c rest = .error fault) :
    ∃ skipped more, c :: rest = skipped ++ (LexError.ofFault p fault).found :: more ∧
      (LexError.ofFault p fault).position = p.after skipped := by
  cases fault with
  | unterminatedString =>
    obtain ⟨rfl, _⟩ := first_eq_unterminated_iff.1 failed
    exact ⟨[], rest, rfl, rfl⟩
  | unexpectedCharacter skipped found =>
    obtain ⟨more, whole, _⟩ := unexpected_of_first failed
    exact ⟨skipped, more, whole, rfl⟩

theorem exists_split_of_scanFrom {e : LexError} (failed : scanFrom afterDot p text = .error e) :
    ∃ before behind, text = before ++ e.found :: behind ∧ e.position = p.after before := by
  obtain ⟨before, c, rest, fault, ts, rfl, rfl, _, _, faulty⟩ := exists_fault_of_scanFrom failed
  obtain ⟨skipped, behind, whole, there⟩ := exists_split_of_fault (p.after before) faulty
  refine ⟨before ++ skipped, behind, ?_, ?_⟩
  · rw [whole, List.append_assoc]
  · rw [there, Position.after_append]

theorem placedIn_of_scan {text : String} {e : LexError} (failed : scan text = .error e) :
    e.PlacedIn text.toList := by
  obtain ⟨before, behind, whole, there⟩ := exists_split_of_scanFrom failed
  constructor
  · rw [whole, there]
    exact Position.isPlaceIn_of_split
  · rw [there, whole]
    exact Position.getElem_of_split

theorem Layout.isPlaceIn (layout : Layout .start text ts) :
    ∀ t ∈ ts, t.position.IsPlaceIn text := by
  intro t member
  obtain ⟨before, behind, whole, there⟩ := layout.exists_split t member
  obtain ⟨c, more, source⟩ := List.exists_cons_of_ne_nil (layout.source_ne_nil t member)
  rw [whole, there, source]
  exact Position.isPlaceIn_of_split

structure Names (t : Token) (name : String) (p : Position) : Prop where
  kind : t.kind = .identifier
  lexeme : t.lexeme = name
  position : t.position = p

end Token

/-- What an error says of a token at its position. -/
def ParseError.Concerns (e : ParseError) (t : Token) : Prop :=
  match e with
  | unexpectedToken _ found => t = found
  | unexpectedEnd _ => False
  | duplicateName name p => t.Names name p
  | nestingTooDeep _ _ => t.kind = .leftBracket ∨ t.kind = .leftBrace

namespace Grammar

variable {α : Type} {mark : TokenKind} {Item : List Token → α → Prop} {ts : List Token}
  {as : List α} {Q : Token → α → Prop}

theorem Separated.exists_token (each : ∀ ts a, Item ts a → ∃ t ∈ ts, Q t a)
    (items : Separated mark Item ts as) : ∀ a ∈ as, ∃ t ∈ ts, Q t a := by
  induction items with
  | one item => simpa using each _ _ item
  | more item _ _ ih =>
    refine List.forall_mem_cons.2 ⟨?_, fun a member => ?_⟩
    · obtain ⟨t, inside, holds⟩ := each _ _ item
      exact ⟨t, List.mem_append_left _ inside, holds⟩
    · obtain ⟨t, inside, holds⟩ := ih a member
      exact ⟨t, List.mem_append_right _ (List.mem_cons_of_mem _ inside), holds⟩

theorem CommaList.exists_token (each : ∀ ts a, Item ts a → ∃ t ∈ ts, Q t a)
    (items : CommaList Item ts as) : ∀ a ∈ as, ∃ t ∈ ts, Q t a := by
  cases items with
  | none => simp
  | some items => exact items.exists_token each

theorem IsBinding.exists_name {b : Binding} (isBinding : IsBinding ts b) :
    ∃ t ∈ ts, t.Names b.name b.position := by
  cases isBinding with
  | mk name => exact ⟨_, List.mem_cons_self, name, rfl, rfl⟩

end Grammar

namespace Parser

open Grammar

variable {rules : Rules} {limit : Nat} {ts tokens : List Token} {hole : Hole} {s : State}
  {bindings : List Binding} {e : ParseError}

theorem exists_name_of_parse (accepted : parse rules tokens = .ok bindings) :
    ∀ b ∈ bindings, ∃ t ∈ tokens, t.Names b.name b.position := by
  obtain ⟨raw, isBindings, _, added⟩ := parse_eq_ok_iff.1 accepted
  have each : ∀ ts b, IsBinding ts b → ∃ t ∈ ts, t.Names b.name b.position :=
    fun _ _ => IsBinding.exists_name
  intro b member
  rcases mem_of_foldlM_add added b member with none | member
  · cases none
  · exact CommaList.exists_token each isBindings b member

theorem Opened.exists_name (opened : Opened limit ts hole) :
    ∃ t ∈ ts, t.Names hole.name hole.position := by
  induction opened with
  | binding name => exact ⟨_, List.mem_cons_self, name, rfl, rfl⟩
  | element _ _ _ _ ih | entry _ _ _ _ _ _ ih =>
    obtain ⟨t, inside, names⟩ := ih
    exact ⟨t, List.mem_append_left _ inside, names⟩

theorem Awaits.exists_name {awaiting : Awaiting} {name : String} {p : Position}
    (awaits : Awaits limit ts awaiting) (named : awaiting.named? = some (name, p)) :
    ∃ t ∈ ts, t.Names name p := by
  cases awaits with
  | bindingName => cases named
  | bindingColon isName =>
    cases named
    exact ⟨_, List.mem_cons_self, isName, rfl, rfl⟩
  | value opened =>
    cases named
    exact opened.exists_name
  | firstElement opened | firstKey opened | nextKey opened | entryColon opened | nameEnd opened
  | callEnd opened | pathEnd opened | memberName opened | element opened | entry opened =>
    cases named
    obtain ⟨t, inside, names⟩ := opened.exists_name
    exact ⟨t, List.mem_append_left _ inside, names⟩

theorem Reads.exists_name {name : String} {p : Position} (reads : Reads rules ts s)
    (named : s.awaiting.named? = some (name, p)) : ∃ t ∈ ts, t.Names name p := by
  cases reads with
  | behind => cases named
  | within _ _ awaits =>
    obtain ⟨t, inside, names⟩ := awaits.exists_name named
    exact ⟨t, List.mem_append_right _ inside, names⟩

theorem exists_token_of_parse {p : Position} (failed : parse rules tokens = .error e)
    (there : e.position? = some p) : ∃ t ∈ tokens, t.position = p ∧ e.Concerns t := by
  unfold parse at failed
  split at failed
  · cases failed
  · rcases Except.bind_eq_error_iff.1 failed with failed | ⟨s, ran, failed⟩
    · obtain ⟨pre, t, post, s, rfl, ran, failed⟩ := exists_step_of_run failed
      have here : t ∈ pre ++ t :: post := List.mem_append_right _ List.mem_cons_self
      cases refuses_of_step failed with
      | unexpected | unreadable =>
        cases there
        exact ⟨t, here, rfl, rfl⟩
      | tooDeep opens =>
        cases there
        exact ⟨t, here, rfl, opens⟩
      | repeated named =>
        cases there
        obtain ⟨u, inside, names⟩ := ((reads_start rules).run ran).exists_name named
        exact ⟨u, List.mem_append_left _ inside, names.position, names⟩
    · cases refusesEnd_of_finish failed with
      | missing => cases there
      | repeated named =>
        cases there
        obtain ⟨u, inside, names⟩ := ((reads_start rules).run ran).exists_name named
        exact ⟨u, inside, names.position, names⟩

end Parser

structure Binding.PlacedIn (b : Binding) (text : List Char) : Prop where
  place : b.position.IsPlaceIn text
  name : (text.drop b.position.offset).take b.name.length = b.name.toList

def ParseError.PlacedAmong (e : ParseError) (text : List Char) (tokens : List Token) : Prop :=
  ∀ p, e.position? = some p →
    p.IsPlaceIn text ∧ ∃ t ∈ tokens, t.position = p ∧ e.Concerns t

theorem Binding.placedIn_of_names {text : List Char} {tokens : List Token} {b : Binding} {t : Token}
    (layout : Token.Layout .start text tokens) (member : t ∈ tokens)
    (names : t.Names b.name b.position) : b.PlacedIn text := by
  refine ⟨names.position ▸ layout.isPlaceIn t member, ?_⟩
  obtain ⟨before, behind, rfl, there⟩ := layout.exists_split t member
  have source : t.source = b.name.toList := by
    rw [Token.source, Lexeme.sourceOf, names.kind, if_neg (by decide), names.lexeme]
  have offset : b.position.offset = before.length := by
    rw [← names.position, there, Position.start_after]
  rw [offset, List.drop_left, source, ← String.length_toList, List.take_left]

/-- Every reported position is true, and an error stands at a token that it is about. -/
theorem reported_positions (rules : Rules) (text : String) :
    match Token.scan text with
    | .error e => e.PlacedIn text.toList ∧ readBindings rules text = .error (.lexical e)
    | .ok tokens =>
      (∀ t ∈ tokens, t.position.IsPlaceIn text.toList) ∧
        match readBindings rules text with
        | .ok bindings => ∀ b ∈ bindings, b.PlacedIn text.toList
        | .error (.lexical _) => False
        | .error (.grammatical e) => e.PlacedAmong text.toList tokens := by
  cases scanned : Token.scan text with
  | error e => exact ⟨Token.placedIn_of_scan scanned, by rw [readBindings, scanned]; rfl⟩
  | ok tokens =>
    have layout := Token.layout_of_scanFrom scanned
    refine ⟨layout.isPlaceIn, ?_⟩
    rw [readBindings_of_scan rules scanned]
    cases parsed : parse rules tokens with
    | ok bindings =>
      intro b member
      obtain ⟨t, inside, names⟩ := Parser.exists_name_of_parse parsed b member
      exact Binding.placedIn_of_names layout inside names
    | error e =>
      intro p there
      obtain ⟨t, inside, rfl, concerns⟩ := Parser.exists_token_of_parse parsed there
      exact ⟨layout.isPlaceIn t inside, t, inside, rfl, concerns⟩

end Bindlang
