namespace Bindlang.Text

/-- The ranges, ends included, of the characters with the `White_Space` property. -/
def whitespaceRanges : List (Nat × Nat) := [
  (0x9, 0xd), (0x20, 0x20),
  (0x85, 0x85), (0xa0, 0xa0), (0x1680, 0x1680), (0x2000, 0x200a), (0x2028, 0x2029),
  (0x202f, 0x202f), (0x205f, 0x205f), (0x3000, 0x3000)]

def isWhitespace (c : Char) : Bool :=
  whitespaceRanges.any fun (first, last) => first ≤ c.toNat && c.toNat ≤ last

def trim (text : List Char) : List Char :=
  ((text.dropWhile isWhitespace).reverse.dropWhile isWhitespace).reverse

end Bindlang.Text
