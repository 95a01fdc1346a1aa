import Bindlang.Expression
import Bindlang.Proofs.Data.Collections

namespace Bindlang

namespace Segment

variable {segment : Segment} {part : List Char}

theorem ofChars_append_call (name : List Char) :
    ofChars (name ++ ['(', ')']) = ⟨.ofList name, true⟩ := by
  simp [ofChars, List.isSuffixOf_iff_suffix]

theorem ofChars_of_no_call (noCall : ¬['(', ')'] <:+ part) : ofChars part = ⟨.ofList part, false⟩ := by
  simp [ofChars, List.isSuffixOf_iff_suffix, noCall]

theorem chars_ofChars (part : List Char) : (ofChars part).chars = part := by
  by_cases call : ['(', ')'] <:+ part
  · obtain ⟨name, rfl⟩ := call
    rw [ofChars_append_call, chars, if_pos rfl, String.toList_ofList]
  · rw [ofChars_of_no_call call, chars, if_neg Bool.false_ne_true, String.toList_ofList]

theorem ofChars_chars_iff :
    ofChars segment.chars = segment ↔
      (segment.invoked = false → ¬['(', ')'] <:+ segment.name.toList) := by
  obtain ⟨name, invoked⟩ := segment
  cases invoked with
  | true => simp [chars, ofChars_append_call]
  | false =>
    by_cases call : ['(', ')'] <:+ name.toList
    · obtain ⟨before, whole⟩ := id call
      simp [chars, ← whole, ofChars_append_call]
    · simp [chars, ofChars_of_no_call call, call]

theorem dot_mem_chars_iff : '.' ∈ segment.chars ↔ '.' ∈ segment.name.toList := by
  unfold chars
  split <;> simp

end Segment

namespace Path

theorem ofText_ne_nil (text : String) : ofText text ≠ [] := by
  rw [ofText, ne_eq, List.map_eq_nil_iff]
  exact List.splitOn_ne_nil '.' text.toList

theorem chars_ofText (text : String) : (ofText text).chars = text.toList := by
  rw [ofText, chars, List.map_map]
  have same : Segment.chars ∘ Segment.ofChars = id := funext Segment.chars_ofChars
  rw [same, List.map_id, List.intercalate_splitOn]

theorem ofText_append_dot (before behind : String) :
    ofText (before ++ "." ++ behind) = ofText before ++ ofText behind := by
  have dot : (before ++ "." ++ behind).toList = before.toList ++ '.' :: behind.toList := by simp
  rw [ofText, ofText, ofText, dot, List.splitOn_append_cons_self, List.map_append]

theorem of_mem_ofText {text : String} {segment : Segment} (member : segment ∈ ofText text) :
    '.' ∉ segment.name.toList ∧ Segment.ofChars segment.chars = segment := by
  obtain ⟨part, inside, rfl⟩ := List.mem_map.1 member
  rw [← Segment.dot_mem_chars_iff, Segment.chars_ofChars]
  exact ⟨List.not_mem_of_mem_splitOn inside, rfl⟩

theorem ofText_chars_iff {path : Path} :
    ofText (.ofList path.chars) = path ↔
      path ≠ [] ∧ (∀ segment ∈ path, '.' ∉ segment.name.toList) ∧
        ∀ segment ∈ path, segment.invoked = false → ¬['(', ')'] <:+ segment.name.toList := by
  constructor
  · intro same
    rw [← same]
    exact ⟨ofText_ne_nil _, fun segment member => (of_mem_ofText member).1,
      fun segment member => Segment.ofChars_chars_iff.1 (of_mem_ofText member).2⟩
  · rintro ⟨filled, noDot, noCall⟩
    have parts : path.map Segment.chars ≠ [] := by simpa using filled
    have uncut : ∀ part ∈ path.map Segment.chars, '.' ∉ part :=
      List.forall_mem_map.2 fun segment member =>
        mt Segment.dot_mem_chars_iff.1 (noDot segment member)
    have same : ∀ segment ∈ path, Segment.ofChars segment.chars = segment :=
      fun segment member => Segment.ofChars_chars_iff.2 (noCall segment member)
    rw [ofText, String.toList_ofList, chars, List.splitOn_intercalate '.' uncut parts, List.map_map]
    exact (List.map_congr_left same).trans (List.map_id path)

/-- Cutting a text loses nothing, and gives back the paths whose names can be told apart. -/
theorem text_is_cut_back :
    (∀ text, (Expression.path (ofText text)).text = text) ∧
    ∀ path : Path, ofText (Expression.path path).text = path ↔
      path ≠ [] ∧ (∀ segment ∈ path, '.' ∉ segment.name.toList) ∧
        ∀ segment ∈ path, segment.invoked = false → ¬['(', ')'] <:+ segment.name.toList := by
  refine ⟨fun text => ?_, fun path => ofText_chars_iff⟩
  rw [Expression.text, Expression.chars, chars_ofText, String.ofList_toList]

example : ofText "().f()().." = [⟨"", true⟩, ⟨"f()", true⟩, ⟨"", false⟩, ⟨"", false⟩] ∧
    ofText (Expression.path []).text = [⟨"", false⟩] ∧
    ofText (Expression.path [⟨"f()", false⟩]).text = [⟨"f", true⟩] := by
  decide +kernel

end Path

end Bindlang
