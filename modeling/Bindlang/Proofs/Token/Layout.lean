import Bindlang.Proofs.Data.Except
import Bindlang.Token.Lexer
import Mathlib.Control.Monad.Basic

namespace Bindlang.Token

def Blank (text : List Char) : Prop :=
  ∀ c ∈ text, Text.isWhitespace c = true

/-- Source texts of tokens at their places, and white space around them. -/
inductive Layout : Position → List Char → List Token → Prop
  | blank {p : Position} {text : List Char} (isBlank : Blank text) : Layout p text []
  | token {p : Position} {blank rest : List Char} {t : Token} {ts : List Token}
      (isBlank : Blank blank) (place : t.position = p.after blank) (filled : t.source ≠ [])
      (others : Layout (t.position.after t.source) rest ts) :
      Layout p (blank ++ (t.source ++ rest)) (t :: ts)

variable {p : Position} {text : List Char} {t : Token} {ts : List Token} {afterDot : Bool}

theorem blank_takeWhile (text : List Char) : Blank (text.takeWhile Text.isWhitespace) :=
  List.all_eq_true.1 List.all_takeWhile

theorem takeWhile_append_skipBlank (p : Position) (text : List Char) :
    text.takeWhile Text.isWhitespace ++ (skipBlank p text).2 = text :=
  List.takeWhile_append_dropWhile

theorem blank_of_skipBlank (nothing : (skipBlank p text).2 = []) : Blank text := by
  have whole := takeWhile_append_skipBlank p text
  rw [nothing, List.append_nil] at whole
  exact whole ▸ blank_takeWhile text

theorem source_ofLexeme (l : Lexeme) (p : Position) :
    source ⟨l.kind, .ofList l.chars, p⟩ = l.source := by
  simp [source, Lexeme.source]

theorem Layout.read {c : Char} {rest : List Char} {l : Lexeme}
    (more : (skipBlank p text).2 = c :: rest) (read : Lexeme.first afterDot c rest = .ok l)
    (others : Layout ((skipBlank p text).1.after l.source) l.rest ts) :
    Layout p text (⟨l.kind, .ofList l.chars, (skipBlank p text).1⟩ :: ts) := by
  have whole := takeWhile_append_skipBlank p text
  have source := source_ofLexeme l (skipBlank p text).1
  rw [more, ← Lexeme.first_source read, ← source] at whole
  rw [← source] at others
  have laid := Layout.token (blank_takeWhile text) rfl
    (source ▸ Lexeme.first_source_ne_nil read) others
  rwa [whole] at laid

theorem layout_of_scanFrom (scanned : scanFrom afterDot p text = .ok ts) : Layout p text ts := by
  fun_induction scanFrom afterDot p text generalizing ts with
  | case1 afterDot p text nothing =>
    cases scanned
    exact .blank (blank_of_skipBlank nothing)
  | case2 => cases scanned
  | case3 =>
    rename_i more _ _ read _ ih
    obtain ⟨others, behind, rfl⟩ := Except.map_eq_ok_iff.1 scanned
    exact .read more read (ih behind)

theorem Layout.exists_split (layout : Layout p text ts) : ∀ t ∈ ts, ∃ before behind,
    text = before ++ (t.source ++ behind) ∧ t.position = p.after before := by
  induction layout with
  | blank => simp
  | @token p blank rest u us _ place _ _ ih =>
    intro t member
    rcases List.mem_cons.1 member with rfl | member
    · exact ⟨blank, rest, rfl, place⟩
    · obtain ⟨before, behind, rfl, there⟩ := ih t member
      exact ⟨blank ++ (u.source ++ before), behind, by simp, by simp [there, place]⟩

def stop (t : Token) : Nat :=
  t.position.offset + t.source.length

theorem Layout.offset_le (layout : Layout p text ts) : ∀ t ∈ ts, p.offset ≤ t.position.offset := by
  intro t member
  obtain ⟨before, _, _, there⟩ := layout.exists_split t member
  rw [there, Position.offset_after]
  omega

theorem Layout.pairwise (layout : Layout p text ts) :
    ts.Pairwise fun t u => t.stop ≤ u.position.offset := by
  induction layout with
  | blank => exact .nil
  | token _ _ _ others ih =>
    refine .cons (fun u member => ?_) ih
    have := others.offset_le u member
    rwa [Position.offset_after] at this

theorem Layout.source_ne_nil (layout : Layout p text ts) : ∀ t ∈ ts, t.source ≠ [] := by
  induction layout with
  | blank => simp
  | token _ _ filled _ ih => exact List.forall_mem_cons.2 ⟨filled, ih⟩

theorem Layout.length_le (layout : Layout p text ts) : ts.length ≤ text.length := by
  induction layout with
  | blank => exact Nat.zero_le _
  | token _ _ filled _ ih =>
    have := List.length_pos_iff.2 filled
    simp only [List.length_cons, List.length_append]
    omega

theorem Layout.isWhitespace_of_outside (layout : Layout p text ts) {i : Nat} {c : Char}
    (here : text[i]? = some c)
    (outside : ∀ t ∈ ts, ¬(t.position.offset ≤ p.offset + i ∧ p.offset + i < t.stop)) :
    Text.isWhitespace c = true := by
  induction layout generalizing i with
  | blank isBlank => exact isBlank c (List.mem_of_getElem? here)
  | @token p blank rest t ts isBlank place _ _ ih =>
    have offset : t.position.offset = p.offset + blank.length := by
      rw [place, Position.offset_after]
    have notHere := outside t List.mem_cons_self
    rw [stop, offset] at notHere
    by_cases inBlank : i < blank.length
    · rw [List.getElem?_append_left inBlank] at here
      exact isBlank c (List.mem_of_getElem? here)
    · have behind : blank.length + t.source.length ≤ i := by omega
      rw [List.getElem?_append_right (by omega), List.getElem?_append_right (by omega)] at here
      refine ih here fun u member => ?_
      have := outside u (List.mem_cons_of_mem _ member)
      rw [Position.offset_after, offset]
      omega

/-- Tokens stand at their places in order, with nothing but white space between them. -/
theorem scan_layout {text : String} {tokens : List Token} (scanned : scan text = .ok tokens) :
    (∀ t ∈ tokens, t.source ≠ [] ∧
      (text.toList.drop t.position.offset).take t.source.length = t.source) ∧
    tokens.Pairwise (fun t u => t.stop ≤ u.position.offset) ∧
    (∀ i c, text.toList[i]? = some c →
      (∀ t ∈ tokens, ¬(t.position.offset ≤ i ∧ i < t.stop)) → Text.isWhitespace c = true) ∧
    Layout .start text.toList tokens ∧ tokens.length ≤ text.length := by
  have layout := layout_of_scanFrom scanned
  refine ⟨fun t member => ⟨layout.source_ne_nil t member, ?_⟩, layout.pairwise, ?_, layout, ?_⟩
  · obtain ⟨before, behind, whole, there⟩ := layout.exists_split t member
    have offset : t.position.offset = before.length := by
      rw [there, Position.offset_after]
      simp [Position.start]
    rw [whole, offset, List.drop_left, List.take_left]
  · intro i c here outside
    refine layout.isWhitespace_of_outside here fun t member => ?_
    simpa [Position.start] using outside t member
  · rw [← String.length_toList]
    exact layout.length_le

theorem scan_layout_of_path_and_string :
    let tokens : List Token := [⟨.identifier, "a", ⟨1, 2, 1⟩⟩, ⟨.dot, ".", ⟨1, 3, 2⟩⟩,
      ⟨.identifier, "1", ⟨1, 5, 4⟩⟩, ⟨.string, "\n", ⟨1, 6, 5⟩⟩]
    scan " a. 1\"\n\"\t" = .ok tokens ∧
    (∀ t ∈ tokens, t.source ≠ [] ∧
      (" a. 1\"\n\"\t".toList.drop t.position.offset).take t.source.length = t.source) ∧
    tokens.Pairwise (fun t u => t.stop ≤ u.position.offset) ∧
    (∀ i c, " a. 1\"\n\"\t".toList[i]? = some c →
      (∀ t ∈ tokens, ¬(t.position.offset ≤ i ∧ i < t.stop)) → Text.isWhitespace c = true) ∧
    Layout .start " a. 1\"\n\"\t".toList tokens ∧ tokens.length ≤ " a. 1\"\n\"\t".length := by
  intro tokens
  have scanned : scan " a. 1\"\n\"\t" = .ok tokens := by decide +kernel
  exact ⟨scanned, scan_layout scanned⟩

end Bindlang.Token
