import Bindlang.Decimal.FloatText
import Bindlang.Path
import Bindlang.Position
import Bindlang.Text.Integer

namespace Bindlang

inductive Literal
  | string (s : String)
  | integer (n : Int64)
  | float (x : Float)
  | boolean (b : Bool)
  | null
  | undefined
  deriving DecidableEq

/-- The keys of an object may repeat; the last entry counts. -/
inductive Expression
  | literal (l : Literal)
  | array (items : List Expression)
  | object (entries : List (String × Expression))
  | path (path : Path)

/-- The position is that of the name. -/
structure Binding where
  name : String
  value : Expression
  position : Position

def quoted (s : String) : List Char :=
  '"' :: (s.toList ++ ['"'])

def separated (parts : List (List Char)) : List Char :=
  [',', ' '].intercalate parts

def booleanText (b : Bool) : List Char :=
  if b then "true".toList else "false".toList

namespace Literal

def chars : Literal → List Char
  | string s => quoted s
  | integer n => Text.writeInteger n.toInt
  | float x => FloatFormat.expression.chars x
  | boolean b => booleanText b
  | null => "null".toList
  | undefined => "undefined".toList

end Literal

namespace Expression

mutual

def chars : Expression → List Char
  | literal l => l.chars
  | array items => '[' :: (separated (itemTexts items) ++ [']'])
  | object entries => '{' :: (separated (entryTexts entries) ++ ['}'])
  | path p => p.chars

def itemTexts : List Expression → List (List Char)
  | [] => []
  | item :: items => item.chars :: itemTexts items

def entryTexts : List (String × Expression) → List (List Char)
  | [] => []
  | (key, value) :: entries => (quoted key ++ ':' :: ' ' :: value.chars) :: entryTexts entries

end

theorem itemTexts_eq_map (items : List Expression) : itemTexts items = items.map chars := by
  induction items with
  | nil => rfl
  | cons item items ih => simp [itemTexts, ih]

theorem entryTexts_eq_map (entries : List (String × Expression)) :
    entryTexts entries = entries.map fun (key, value) => quoted key ++ ':' :: ' ' :: value.chars := by
  induction entries with
  | nil => rfl
  | cons entry entries ih => simp [entryTexts, ih]

def text (e : Expression) : String :=
  .ofList e.chars

theorem inductionOn {motive : Expression → Prop} (e : Expression)
    (literal : ∀ l, motive (.literal l))
    (array : ∀ items, (∀ item ∈ items, motive item) → motive (.array items))
    (object : ∀ entries, (∀ entry ∈ entries, motive entry.2) → motive (.object entries))
    (path : ∀ p, motive (.path p)) : motive e :=
  @Expression.rec motive (fun items => ∀ item ∈ items, motive item)
    (fun entries => ∀ entry ∈ entries, motive entry.2) (fun entry => motive entry.2)
    literal array object path
    (fun _ none => nomatch none) (fun _ _ first others => List.forall_mem_cons.2 ⟨first, others⟩)
    (fun _ none => nomatch none) (fun _ _ first others => List.forall_mem_cons.2 ⟨first, others⟩)
    (fun _ _ value => value) e

end Expression

namespace Binding

def chars (b : Binding) : List Char :=
  b.name.toList ++ ':' :: ' ' :: b.value.chars

def text (b : Binding) : String :=
  .ofList b.chars

end Binding

end Bindlang
