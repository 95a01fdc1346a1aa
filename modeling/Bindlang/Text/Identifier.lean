import Bindlang.Text.Numeric

namespace Bindlang.Text

def isIdentifierStart (c : Char) : Bool :=
  isAlphabetic c || c == '_' || c == '$'

def isIdentifierChar (c : Char) : Bool :=
  isAlphanumeric c || c == '_' || c == '$'

theorem isIdentifierChar_of_start {c : Char} (h : isIdentifierStart c = true) :
    isIdentifierChar c = true := by
  simp only [isIdentifierStart, isIdentifierChar, isAlphanumeric, Bool.or_eq_true] at h ⊢
  rcases h with (h | h) | h <;> simp [h]

theorem isIdentifierChar_of_isDigit {c : Char} (h : c.isDigit = true) :
    isIdentifierChar c = true := by
  simp [isIdentifierChar, isAlphanumeric, isNumeric, h]

end Bindlang.Text
