import Bindlang.Json.Number

namespace Bindlang.Json

def maxDepth : Nat := 127

def isBlank (c : Char) : Bool :=
  c == ' ' || c == '\n' || c == '\t' || c == '\r'

def skipBlank (text : List Char) : List Char :=
  text.dropWhile isBlank

def expect? (word text : List Char) : Option (List Char) :=
  if word.isPrefixOf text then some (text.drop word.length) else none

def hexValue? (c : Char) : Option Nat :=
  if c.isDigit then some (c.toNat - '0'.toNat)
  else if 'a' ≤ c ∧ c ≤ 'f' then some (c.toNat - 'a'.toNat + 10)
  else if 'A' ≤ c ∧ c ≤ 'F' then some (c.toNat - 'A'.toNat + 10)
  else none

def unit? (a b c d : Char) : Option Nat := do
  return ((← hexValue? a) * 16 + (← hexValue? b)) * 256 + (← hexValue? c) * 16 + (← hexValue? d)

def escape? : Char → Option Char
  | '"' => some '"'
  | '\\' => some '\\'
  | '/' => some '/'
  | 'b' => some '\x08'
  | 'f' => some '\x0c'
  | 'n' => some '\n'
  | 'r' => some '\r'
  | 't' => some '\t'
  | _ => none

def isHighSurrogate (unit : Nat) : Bool := 0xd800 ≤ unit && unit < 0xdc00

def isLowSurrogate (unit : Nat) : Bool := 0xdc00 ≤ unit && unit < 0xe000

/-- A pair of surrogates is one character; a surrogate alone is refused. -/
def unicodeEscape? : List Char → Option (Char × List Char)
  | a :: b :: c :: d :: rest => do
    let unit ← unit? a b c d
    if isHighSurrogate unit then
      match rest with
      | '\\' :: 'u' :: a :: b :: c :: d :: rest =>
        let low ← unit? a b c d
        if isLowSurrogate low then
          some (.ofNat (0x10000 + (unit - 0xd800) * 0x400 + (low - 0xdc00)), rest)
        else none
      | _ => none
    else if isLowSurrogate unit then none
    else some (.ofNat unit, rest)
  | _ => none

theorem unicodeEscape_length {text rest : List Char} {c : Char}
    (read : unicodeEscape? text = some (c, rest)) : rest.length < text.length := by
  unfold unicodeEscape? at read
  split at read
  · rename_i a b c d more
    cases found : unit? a b c d with
    | none => simp [found] at read
    | some unit =>
      simp only [found, Option.bind_eq_bind, Option.bind_some] at read
      split at read
      · split at read
        · rename_i a b c d behind
          cases other : unit? a b c d with
          | none => simp [other] at read
          | some low =>
            simp only [other, Option.bind_some] at read
            split at read
            · simp only [Option.some.injEq, Prod.mk.injEq] at read
              rw [← read.2]
              simp only [List.length_cons]
              omega
            · cases read
        · cases read
      · split at read
        · cases read
        · simp only [Option.some.injEq, Prod.mk.injEq] at read
          rw [← read.2]
          simp only [List.length_cons]
          omega
  · cases read

def stringBody? (text : List Char) : Option (List Char × List Char) :=
  match text with
  | [] => none
  | '"' :: rest => some ([], rest)
  | '\\' :: 'u' :: rest =>
    match read : unicodeEscape? rest with
    | none => none
    | some (c, behind) =>
      have : behind.length < rest.length := unicodeEscape_length read
      (stringBody? behind).map fun (cs, rest) => (c :: cs, rest)
  | '\\' :: e :: rest => do
    let c ← escape? e
    let (cs, rest) ← stringBody? rest
    return (c :: cs, rest)
  | c :: rest =>
    if c.toNat < 0x20 ∨ c = '\\' then none
    else (stringBody? rest).map fun (cs, rest) => (c :: cs, rest)
termination_by text.length

def string? : List Char → Option (String × List Char)
  | '"' :: rest => (stringBody? rest).map fun (cs, rest) => (.ofList cs, rest)
  | _ => none

def items? {α : Type} (item? : List Char → Option (α × List Char)) (close : Char)
    (text : List Char) : Option (List α × List Char) :=
  match item? (skipBlank text) with
  | none => none
  | some (item, rest) =>
    match skipBlank rest with
    | [] => none
    | mark :: behind =>
      if mark = close then some ([item], behind)
      else if mark = ',' then
        if behind.length < text.length then
          (items? item? close behind).map fun (items, rest) => (item :: items, rest)
        else none
      else none
termination_by text.length

def container? {α : Type} (item? : List Char → Option (α × List Char)) (close : Char)
    (text : List Char) : Option (List α × List Char) :=
  match skipBlank text with
  | [] => none
  | mark :: behind => if mark = close then some ([], behind) else items? item? close (mark :: behind)

def field? {α : Type} (value? : List Char → Option (α × List Char)) (text : List Char) :
    Option ((String × α) × List Char) := do
  let (key, rest) ← string? text
  let rest ← expect? [':'] (skipBlank rest)
  let (value, rest) ← value? (skipBlank rest)
  return ((key, value), rest)

def scalar? (text : List Char) : Option (Json × List Char) :=
  match text with
  | 'n' :: _ => (expect? "null".toList text).map (null, ·)
  | 't' :: _ => (expect? "true".toList text).map (boolean true, ·)
  | 'f' :: _ => (expect? "false".toList text).map (boolean false, ·)
  | '"' :: _ => (string? text).map fun (s, rest) => (string s, rest)
  | _ => do
    let (numeral, rest) ← Numeral.read? text
    return (← numeral.value?, rest)

/-- The value at the front of a text, in which containers nest no deeper than `depth`. -/
def value? : (depth : Nat) → List Char → Option (Json × List Char)
  | depth + 1, '[' :: rest =>
    (container? (value? depth) ']' rest).map fun (items, rest) => (array items, rest)
  | depth + 1, '{' :: rest =>
    (container? (field? (value? depth)) '}' rest).map fun (fields, rest) => (object fields, rest)
  | _, text => scalar? text

def read? (text : List Char) : Option Json := do
  let (value, rest) ← value? maxDepth (skipBlank text)
  if skipBlank rest = [] then some value else none

end Bindlang.Json
