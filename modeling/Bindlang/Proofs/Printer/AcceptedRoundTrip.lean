import Bindlang.Proofs.Parser.DuplicatePolicies
import Bindlang.Proofs.Parser.WellFormedness
import Bindlang.Proofs.Printer.ValueRoundTrip

namespace Bindlang

inductive Expression.Each (Holds : Literal → Prop) : Expression → Prop
  | literal {l : Literal} (holds : Holds l) : Each Holds (.literal l)
  | array {items : List Expression} (each : ∀ item ∈ items, Each Holds item) :
      Each Holds (.array items)
  | object {entries : List (String × Expression)} (each : ∀ entry ∈ entries, Each Holds entry.2) :
      Each Holds (.object entries)
  | path (p : Path) : Each Holds (.path p)

def Literal.IsFinite : Literal → Prop
  | .float x => x.isFinite = true
  | _ => True

theorem Expression.WellFormed.of_each_isFinite {Fits : Float → Prop} {e : Expression}
    (wellFormed : e.WellFormed Fits) (finite : e.Each Literal.IsFinite) :
    e.WellFormed (·.isFinite) := by
  induction wellFormed with
  | @literal l literal =>
    cases finite with
    | literal isFinite =>
      refine .literal ?_
      cases l with
      | string s => exact literal
      | float x => exact isFinite
      | _ => trivial
  | array _ ih =>
    cases finite with
    | array each => exact .array fun item member => ih item member (each item member)
  | object keys _ ih =>
    cases finite with
    | object each => exact .object keys fun entry member => ih entry member (each entry member)
  | path path => exact .path path

def Literal.reread : Literal → Expression
  | .float x =>
    if x.isFinite then .literal (.float x)
    else .path [⟨FloatFormat.expression.text x, false⟩]
  | l => .literal l

namespace Expression

mutual

/-- What the text of an expression is read as, if it can be read. -/
def reread : Expression → Expression
  | literal l => l.reread
  | array items => .array (rereadItems items)
  | object entries => .object (rereadEntries entries)
  | path p => .path p

def rereadItems : List Expression → List Expression
  | [] => []
  | item :: items => item.reread :: rereadItems items

def rereadEntries : List (String × Expression) → List (String × Expression)
  | [] => []
  | (key, value) :: entries => (key, value.reread) :: rereadEntries entries

end

theorem rereadItems_eq_map (items : List Expression) : rereadItems items = items.map reread := by
  induction items with
  | nil => rfl
  | cons item items ih => simp [rereadItems, ih]

theorem rereadEntries_eq_map (entries : List (String × Expression)) :
    rereadEntries entries = entries.map fun entry => (entry.1, entry.2.reread) := by
  induction entries with
  | nil => rfl
  | cons entry entries ih => simp [rereadEntries, ih]

variable {Fits : Float → Prop} {e : Expression} {k n : Nat}

theorem reread_literal_iff {l : Literal} : l.reread = .literal l ↔ l.IsFinite := by
  cases l with
  | float x =>
    by_cases finite : x.isFinite = true
    · simp [Literal.reread, Literal.IsFinite, finite]
    · simp [Literal.reread, Literal.IsFinite, finite]
  | _ => simp [Literal.reread, Literal.IsFinite]

theorem WellFormed.each_of_reread (wellFormed : e.WellFormed Fits) (same : e.reread = e) :
    e.Each Literal.IsFinite := by
  induction wellFormed with
  | literal => exact .literal (reread_literal_iff.1 (by simpa [reread] using same))
  | @array items _ ih =>
    have each : items.map reread = items.map id := by
      simpa [reread, rereadItems_eq_map] using same
    rw [List.map_inj_left] at each
    exact .array fun item member => ih item member (each item member)
  | @object entries _ _ ih =>
    have each : entries.map (fun entry => (entry.1, entry.2.reread)) = entries.map id := by
      simpa [reread, rereadEntries_eq_map] using same
    rw [List.map_inj_left] at each
    exact .object fun entry member =>
      ih entry member (congrArg Prod.snd (each entry member))
  | path => exact .path _

theorem Each.reread_eq (finite : e.Each Literal.IsFinite) : e.reread = e := by
  induction finite with
  | literal isFinite =>
    rw [reread]
    exact reread_literal_iff.2 isFinite
  | @array items _ ih =>
    have each : items.map reread = items.map id := List.map_inj_left.2 ih
    rw [reread, rereadItems_eq_map, each, List.map_id]
  | @object entries _ ih =>
    have each : entries.map (fun entry => (entry.1, entry.2.reread)) = entries.map id :=
      List.map_inj_left.2 fun entry member => by rw [ih entry member]; rfl
    rw [reread, rereadEntries_eq_map, each, List.map_id]
  | path => simp [reread]

theorem WellFormed.depth_reread_le (wellFormed : e.WellFormed Fits) (room : e.depth + k ≤ n) :
    e.reread.depth + k ≤ n := by
  induction wellFormed generalizing k with
  | @literal l =>
    have flat : l.reread.depth = 0 := by
      unfold Literal.reread
      split
      · split
        · exact depth_literal _
        · exact depth_path _
      · exact depth_literal _
    rw [reread, flat]
    simpa using room
  | array _ ih =>
    obtain ⟨level, room⟩ := depth_array_add_le_iff.1 room
    rw [reread, rereadItems_eq_map, depth_array_add_le_iff]
    refine ⟨level, List.forall_mem_map.2 fun item member => ih item member (room item member)⟩
  | object _ _ ih =>
    obtain ⟨level, room⟩ := depth_object_add_le_iff.1 room
    rw [reread, rereadEntries_eq_map, depth_object_add_le_iff]
    refine ⟨level, List.forall_mem_map.2 fun entry member => ih entry member (room entry member)⟩
  | path => simpa [reread] using room

end Expression

namespace FloatFormat

/-- Infinities and non-numbers are words, or a word behind a minus sign. -/
theorem chars_of_not_finite (f : FloatFormat) {x : Float} (notFinite : x.isFinite = false) :
    f.chars x = "NaN".toList ∨ f.chars x = "inf".toList ∨ f.chars x = "-inf".toList := by
  have known : x.toModel.unpack.isFinite = false := notFinite
  unfold chars
  cases unpacked : x.toModel.unpack with
  | notANumber => exact .inl rfl
  | infinity sign =>
    cases sign with
    | positive => exact .inr (.inl rfl)
    | negative => exact .inr (.inr rfl)
  | zero => simp [unpacked, Float.Model.UnpackedFloat.isFinite] at known
  | finite => simp [unpacked, Float.Model.UnpackedFloat.isFinite] at known

end FloatFormat

namespace Token

open Lexeme Grammar Text

variable {text more chars : List Char} {kind : TokenKind} {Middle : List Char → Prop}
  {Holds : List Token → Prop} {Fits : Float → Prop}

/-- A text that is refused, wherever it stands and whatever stands behind it. -/
def Fails (text : List Char) : Prop :=
  ∀ p rest, ∃ e, scanFrom false p (text ++ rest) = .error e

theorem Fails.append (fails : Fails text) (more : List Char) : Fails (text ++ more) := by
  intro p rest
  rw [List.append_assoc]
  exact fails p (more ++ rest)

theorem Fails.behind (before : Lexes false text false Middle Holds) (fails : Fails more)
    (goesOn : ∀ rest, Middle (more ++ rest)) : Fails (text ++ more) := by
  intro p rest
  obtain ⟨ts, p', _, read⟩ := before p (more ++ rest) (goesOn rest)
  obtain ⟨e, failed⟩ := fails p' rest
  rw [List.append_assoc, read, failed]
  exact ⟨e, rfl⟩

theorem Fails.behind_mark {c : Char} (isMark : IsMark c kind) (notDot : kind ≠ .dot)
    (fails : Fails text) : Fails (c :: text) := by
  have mark := lexes_mark false isMark
  rw [beq_false_of_ne notDot] at mark
  exact fails.behind mark fun _ => trivial

theorem Fails.behind_space (fails : Fails text) : Fails (' ' :: text) := by
  intro p rest
  obtain ⟨e, failed⟩ := fails (p.after [' ']) rest
  exact ⟨e, (scanFrom_blank blank_space).trans failed⟩

theorem Lexes.not_fails (lexes : Lexes false text false BehindValue Holds) : ¬Fails text := by
  intro fails
  obtain ⟨_, _, _, read⟩ := lexes .start [] behindValue_nil
  obtain ⟨e, failed⟩ := fails .start []
  rw [scanFrom_nil, failed] at read
  cases read

theorem fails_negativeInfinity : Fails "-inf".toList := by
  intro p rest
  have visible : isWhitespace '-' = false := by decide +kernel
  have here : skipBlank p ('-' :: ("inf".toList ++ rest)) = (p, '-' :: ("inf".toList ++ rest)) := by
    simp [skipBlank, visible]
  have notStart : isIdentifierStart '-' = false := by decide +kernel
  have failed : first false '-' ("inf".toList ++ rest) = .error (.unexpectedCharacter [] '-') := by
    simp [first, TokenKind.ofPunctuation?, startsNumber, startsWithDigit, notStart]
  change ∃ e, scanFrom false p ('-' :: ("inf".toList ++ rest)) = .error e
  rw [scanFrom_eq, here]
  simp only [failed]
  exact ⟨_, rfl⟩

theorem lexes_word {name : String} (isIdentifier : IsIdentifier name) :
    Lexes false name.toList false BehindValue (IsValue · (.path [⟨name, false⟩])) := by
  have lexes : Lexes false (Path.chars [⟨name, false⟩]) false BehindValue
      (IsPath · [⟨name, false⟩]) :=
    lexes_path (spelled_of_isIdentifier isIdentifier) (List.forall_mem_nil _)
  rw [Path.chars, List.map_singleton, List.intercalate_singleton] at lexes
  exact lexes.imp (fun _ behind => behind) fun _ isPath => .path isPath

theorem lexes_or_fails_literal {l : Literal} (wellFormed : l.WellFormed Fits) :
    Lexes false l.chars false BehindValue (IsValue · l.reread) ∨ Fails l.chars := by
  by_cases finite : l.IsFinite
  · left
    rw [Expression.reread_literal_iff.2 finite]
    apply lexes_literal
    cases l with
    | string => exact wellFormed
    | float => exact finite
    | _ => trivial
  · cases l with
    | float x =>
      have notFinite : x.isFinite = false := Bool.eq_false_of_not_eq_true finite
      have reread : (Literal.float x).reread = .path [⟨FloatFormat.expression.text x, false⟩] := by
        simp [Literal.reread, notFinite]
      have chars : (Literal.float x).chars = FloatFormat.expression.chars x := rfl
      rw [reread, FloatFormat.text, chars]
      rcases FloatFormat.chars_of_not_finite .expression notFinite with text | text | text
      · rw [text, String.ofList_toList]
        exact .inl (lexes_word ⟨by decide +kernel, by decide +kernel, by decide⟩)
      · rw [text, String.ofList_toList]
        exact .inl (lexes_word ⟨by decide +kernel, by decide +kernel, by decide⟩)
      · rw [text]
        exact .inr fails_negativeInfinity
    | _ => exact absurd trivial finite

section Lists

variable {α : Type} {chars : α → List Char} {Item : List Token → α → Prop} {items : List α}

theorem fails_list
    (each : ∀ item ∈ items,
      Lexes false (chars item) false BehindValue (Item · item) ∨ Fails (chars item))
    (some : ¬∀ item ∈ items, Lexes false (chars item) false BehindValue (Item · item)) :
    Fails (separated (items.map chars)) := by
  induction items with
  | nil => exact absurd (List.forall_mem_nil _) some
  | cons item items ih =>
    obtain ⟨first, others⟩ := List.forall_mem_cons.1 each
    rw [List.forall_mem_cons, not_and] at some
    cases items with
    | nil =>
      rw [List.map_singleton, separated, List.intercalate_singleton]
      exact first.resolve_left fun lexes => some lexes (List.forall_mem_nil _)
    | cons next items =>
      have split : separated ((item :: next :: items).map chars) =
          chars item ++ ',' :: ' ' :: separated ((next :: items).map chars) := by
        simp [separated]
      rw [split]
      have isComma : IsMark ',' .comma := rfl
      rcases first with lexes | fails
      -- If the first item is read, what is refused stands behind it and a comma.
      · have rest := (ih others (some lexes)).behind_space.behind_mark isComma (by decide)
        exact rest.behind lexes fun _ => behindValue_mark isComma (by decide) _
      · exact fails.append _

theorem lexes_or_fails_list
    (each : ∀ item ∈ items,
      Lexes false (chars item) false BehindValue (Item · item) ∨ Fails (chars item)) :
    Lexes false (separated (items.map chars)) false BehindValue (CommaList Item · items) ∨
      Fails (separated (items.map chars)) := by
  by_cases all : ∀ item ∈ items, Lexes false (chars item) false BehindValue (Item · item)
  · exact .inl (lexes_commaList all)
  · exact .inr (fails_list each all)

end Lists

theorem Fails.labelled (spelled : Spelled false kind chars) (notDot : kind ≠ .dot)
    (fails : Fails text) : Fails (sourceOf kind chars ++ ':' :: ' ' :: text) := by
  have isColon : IsMark ':' .colon := rfl
  have label := lexes_token spelled
  rw [beq_false_of_ne notDot] at label
  refine (fails.behind_space.behind_mark isColon (by decide)).behind label fun rest => ?_
  exact (behindValue_mark isColon (by decide) _).ends kind

theorem lexes_or_fails_entry {key : String} {e e' : Expression} (isQuotable : IsQuotable key)
    (value : Lexes false e.chars false BehindValue (IsValue · e') ∨ Fails e.chars) :
    Lexes false (quoted key ++ ':' :: ' ' :: e.chars) false BehindValue
      (IsEntry IsValue · (key, e')) ∨ Fails (quoted key ++ ':' :: ' ' :: e.chars) := by
  rcases value with lexes | fails
  · exact .inl (lexes_entry isQuotable lexes)
  · exact .inr (fails.labelled (.string isQuotable) (by decide))

theorem lexes_or_fails {e : Expression} (wellFormed : e.WellFormed Fits) :
    Lexes false e.chars false BehindValue (IsValue · e.reread) ∨ Fails e.chars := by
  induction wellFormed with
  | literal literal =>
    rw [Expression.chars, Expression.reread]
    exact lexes_or_fails_literal literal
  | array _ ih =>
    rw [Expression.chars, Expression.itemTexts_eq_map, Expression.reread,
      Expression.rereadItems_eq_map]
    rcases lexes_or_fails_list ih with lexes | fails
    · exact .inl (lexes_array (lexes.imp (fun _ behind => behind) fun _ items => items.map))
    · have isMark : IsMark '[' .leftBracket := rfl
      exact .inr ((fails.append _).behind_mark isMark (by decide))
  | object keys _ ih =>
    rw [Expression.chars, Expression.entryTexts_eq_map, Expression.reread,
      Expression.rereadEntries_eq_map]
    rcases lexes_or_fails_list fun entry member =>
      lexes_or_fails_entry (keys entry member) (ih entry member) with lexes | fails
    · exact .inl (lexes_object (lexes.imp (fun _ behind => behind) fun _ entries => entries.map))
    · have isMark : IsMark '{' .leftBrace := rfl
      exact .inr ((fails.append _).behind_mark isMark (by decide))
  | path path =>
    left
    rw [Expression.reread]
    exact lexes_value (.path path)

end Token

def Binding.reread (b : Binding) : Binding :=
  ⟨b.name, b.value.reread, b.position⟩

namespace Token

open Lexeme Grammar

theorem lexes_or_fails_binding {Fits : Float → Prop} {b : Binding}
    (wellFormed : b.WellFormed Fits) :
    Lexes false b.chars false BehindValue (IsBindingAs · b.reread) ∨ Fails b.chars := by
  rcases lexes_or_fails wellFormed.value with lexes | fails
  · exact .inl (lexes_named wellFormed.name lexes b.position)
  · exact .inr (fails.labelled (spelled_of_isIdentifier wellFormed.name) (by decide))

theorem Fails.scan {text : String} (fails : Fails text.toList) : ∃ e, scan text = .error e := by
  obtain ⟨e, failed⟩ := fails .start []
  rw [List.append_nil] at failed
  exact ⟨e, failed⟩

end Token

open Lexeme Grammar Token

variable {rules : Rules} {text : String} {bs : List Binding}

theorem names_reread (bs : List Binding) :
    (bs.map Binding.reread).map Binding.name = bs.map Binding.name := by
  rw [List.map_map]
  rfl

theorem readBindings_of_reread (distinct : (bs.map Binding.name).Nodup)
    (room : ∀ b ∈ bs.map Binding.reread, b.value.depth ≤ rules.maxDepth)
    (lexes : Lexes false (separated (bs.map Binding.chars)) false BehindValue
      (CommaList (fun ts b => IsBindingAs ts b.reread) · bs)) :
    ∃ read, readBindings rules (", ".intercalate (bs.map Binding.text)) = .ok read ∧
      read.map Binding.parts = (bs.map Binding.reread).map Binding.parts := by
  obtain ⟨tokens, list, scanned⟩ := scan_of_lexes lexes
  rw [← toList_texts, String.ofList_toList] at scanned
  obtain ⟨raw, isBindings, same⟩ := exists_isBindings list.map
  have distinctRaw : (raw.map Binding.name).Nodup := by
    rwa [names_of_parts, same, ← names_of_parts, names_reread]
  have parsed := Parser.parse_of_distinct isBindings (depth_le_of_parts same room) distinctRaw
  refine ⟨raw, ?_, same⟩
  rw [readBindings_of_scan rules scanned, parsed]
  rfl

/-- What has been read can be printed and read again if and only if its floats are finite. -/
theorem readBindings_of_accepted (accepted : readBindings rules text = .ok bs) :
    (∃ read, readBindings rules (", ".intercalate (bs.map Binding.text)) = .ok read ∧
      read.map Binding.parts = bs.map Binding.parts) ↔
      ∀ b ∈ bs, b.value.Each Literal.IsFinite := by
  have wellFormed := wellFormed_of_accepted accepted
  have distinct := nodup_of_readBindings accepted
  have room : ∀ b ∈ bs.map Binding.reread, b.value.depth ≤ rules.maxDepth := by
    obtain ⟨_, _, parsed⟩ := exists_tokens_of_readBindings accepted
    refine List.forall_mem_map.2 fun b member => ?_
    have kept := Parser.depth_le_of_parse parsed b member
    rw [← Nat.add_zero b.value.depth] at kept
    exact (wellFormed b member).value.depth_reread_le kept
  -- Whatever is read of the text is known, and can be compared with the bindings themselves.
  have either := lexes_or_fails_list fun b member => lexes_or_fails_binding (wellFormed b member)
  constructor
  · rintro ⟨read, readBack, same⟩
    rcases either with lexes | fails
    · obtain ⟨reread, readAgain, parts⟩ := readBindings_of_reread distinct room lexes
      rw [readBack, Except.ok.injEq] at readAgain
      rw [← readAgain, same, List.map_map, List.map_inj_left] at parts
      intro b member
      have value : b.value = b.value.reread := congrArg Prod.snd (parts b member)
      exact (wellFormed b member).value.each_of_reread value.symm
    · rw [← toList_texts] at fails
      obtain ⟨e, failed⟩ := fails.scan
      rw [readBindings, failed] at readBack
      cases readBack
  · intro finite
    have printable : ∀ b ∈ bs, b.WellFormed (·.isFinite) := fun b member =>
      ⟨(wellFormed b member).name, (wellFormed b member).value.of_each_isFinite (finite b member)⟩
    have notFails := (lexes_commaList fun b member => lexes_binding (printable b member)).not_fails
    obtain ⟨read, readBack, same⟩ :=
      readBindings_of_reread distinct room (either.resolve_right notFails)
    have reread : bs.map Binding.reread = bs.map id := List.map_inj_left.2 fun b member => by
      rw [Binding.reread, (finite b member).reread_eq]
      rfl
    rw [reread, List.map_id] at same
    exact ⟨read, readBack, same⟩

theorem readBindings_of_number {name lexeme : String} {l : Literal} {p q r : Position}
    (scanned : scan text = .ok [⟨.identifier, name, p⟩, ⟨.colon, ":", q⟩, ⟨.number, lexeme, r⟩])
    (reads : Literal.ofNumber? lexeme = some l) :
    readBindings rules text = .ok [⟨name, .literal l, p⟩] := by
  have isBindings : IsBindings
      [⟨.identifier, name, p⟩, ⟨.colon, ":", q⟩, ⟨.number, lexeme, r⟩] [⟨name, .literal l, p⟩] :=
    .some (.one (.mk rfl rfl (.literal (.number rfl reads))))
  rw [readBindings_of_scan rules scanned,
    Parser.parse_of_distinct isBindings (by simp) (by simp)]
  rfl

theorem longHundred_is_read_back :
    let bs : List Binding := [⟨"a", .literal (.float 100), ⟨1, 1, 0⟩⟩]
    readBindings .default "a: 1.00e2" = .ok bs ∧
      ∃ read, readBindings .default (", ".intercalate (bs.map Binding.text)) = .ok read ∧
        read.map Binding.parts = bs.map Binding.parts := by
  intro bs
  have scanned : scan "a: 1.00e2" = .ok [⟨.identifier, "a", ⟨1, 1, 0⟩⟩, ⟨.colon, ":", ⟨1, 2, 1⟩⟩,
      ⟨.number, "1.00e2", ⟨1, 4, 3⟩⟩] := by decide +kernel
  have reads : Literal.ofNumber? "1.00e2" = some (.float 100) := by decide +kernel
  have accepted : readBindings .default "a: 1.00e2" = .ok bs := readBindings_of_number scanned reads
  refine ⟨accepted, (readBindings_of_accepted accepted).2 fun b member => ?_⟩
  rw [List.mem_singleton.1 member]
  refine .literal ?_
  change Float.isFinite 100 = true
  decide +kernel

/-- The text of infinity is a path, and that of negative infinity is refused. -/
theorem infinities_are_not_read_back :
    let positive : List Binding :=
      [⟨"a", .literal (.float (.ofModel (.pack (.infinity .positive)))), ⟨1, 1, 0⟩⟩]
    let negative : List Binding :=
      [⟨"a", .literal (.float (.ofModel (.pack (.infinity .negative)))), ⟨1, 1, 0⟩⟩]
    (readBindings .default "a: 1e999" = .ok positive ∧
      ¬∃ read, readBindings .default (", ".intercalate (positive.map Binding.text)) = .ok read ∧
        read.map Binding.parts = positive.map Binding.parts) ∧
    readBindings .default "a: -1e999" = .ok negative ∧
      ¬∃ read, readBindings .default (", ".intercalate (negative.map Binding.text)) = .ok read ∧
        read.map Binding.parts = negative.map Binding.parts := by
  intro positive negative
  constructor
  · have scanned : scan "a: 1e999" = .ok [⟨.identifier, "a", ⟨1, 1, 0⟩⟩,
        ⟨.colon, ":", ⟨1, 2, 1⟩⟩, ⟨.number, "1e999", ⟨1, 4, 3⟩⟩] := by decide +kernel
    have reads : Literal.ofNumber? "1e999" =
        some (.float (.ofModel (.pack (.infinity .positive)))) := by decide +kernel
    refine ⟨readBindings_of_number scanned reads, ?_⟩
    have printed : ", ".intercalate (positive.map Binding.text) = "a: inf" := by decide +kernel
    have scannedAgain : scan "a: inf" = .ok [⟨.identifier, "a", ⟨1, 1, 0⟩⟩,
        ⟨.colon, ":", ⟨1, 2, 1⟩⟩, ⟨.identifier, "inf", ⟨1, 4, 3⟩⟩] := by decide +kernel
    have readAgain : readBindings .default "a: inf" =
        .ok [⟨"a", .path [⟨"inf", false⟩], ⟨1, 1, 0⟩⟩] := readBindings_of_scan _ scannedAgain
    rw [printed, readAgain]
    rintro ⟨read, same, parts⟩
    cases same
    cases parts
  · have scanned : scan "a: -1e999" = .ok [⟨.identifier, "a", ⟨1, 1, 0⟩⟩,
        ⟨.colon, ":", ⟨1, 2, 1⟩⟩, ⟨.number, "-1e999", ⟨1, 4, 3⟩⟩] := by decide +kernel
    have reads : Literal.ofNumber? "-1e999" =
        some (.float (.ofModel (.pack (.infinity .negative)))) := by decide +kernel
    refine ⟨readBindings_of_number scanned reads, ?_⟩
    have printed : ", ".intercalate (negative.map Binding.text) = "a: -inf" := by decide +kernel
    have refused : scan "a: -inf" = .error (.unexpectedCharacter '-' ⟨1, 4, 3⟩) := by
      decide +kernel
    rw [printed, readBindings, refused]
    rintro ⟨read, same, _⟩
    cases same

end Bindlang
