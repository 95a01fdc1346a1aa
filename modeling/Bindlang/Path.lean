namespace Bindlang

/-- The member of an invoked segment is called before the walk goes on. -/
structure Segment where
  name : String
  invoked : Bool
  deriving DecidableEq, Repr

abbrev Path := List Segment

namespace Segment

def chars (s : Segment) : List Char :=
  if s.invoked then s.name.toList ++ ['(', ')'] else s.name.toList

def text (s : Segment) : String :=
  .ofList s.chars

/-- A pair of parentheses at the end of a part is a call. -/
def ofChars (part : List Char) : Segment :=
  if ['(', ')'].isSuffixOf part then ⟨.ofList (part.take (part.length - 2)), true⟩
  else ⟨.ofList part, false⟩

end Segment

namespace Path

def chars (path : Path) : List Char :=
  ['.'].intercalate (path.map Segment.chars)

def ofText (text : String) : Path :=
  (text.toList.splitOn '.').map Segment.ofChars

end Path

end Bindlang
