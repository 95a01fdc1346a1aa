import Bindlang.Accessor
import Bindlang.Proofs.Printer.RoundTrip
import Bindlang.Proofs.Store.TreeBuilding

namespace Bindlang

namespace Tree

inductive Printable : Tree → Prop
  | undefined : Printable .undefined
  | null : Printable .null
  | boolean (b : Bool) : Printable (.boolean b)
  | integer (n : Int64) : Printable (.integer n)
  | float {x : Float} (finite : x.isFinite = true) : Printable (.float x)
  | string {s : String} (isQuotable : IsQuotable s) : Printable (.string s)
  | array {items : List Tree} (each : ∀ item ∈ items, Printable item) : Printable (.array items)
  | object {fields : List (String × Tree)} (keys : ∀ field ∈ fields, IsQuotable field.1)
      (values : ∀ field ∈ fields, Printable field.2) : Printable (.object fields)

mutual

/-- A function has none, and stands in it as undefined. -/
def expression : Tree → Expression
  | undefined => .literal .undefined
  | null => .literal .null
  | boolean b => .literal (.boolean b)
  | integer n => .literal (.integer n)
  | float x => .literal (.float x)
  | string s => .literal (.string s)
  | array items => .array (itemExpressions items)
  | object fields => .object (fieldExpressions fields)
  | function _ => .literal .undefined

def itemExpressions : List Tree → List Expression
  | [] => []
  | item :: items => item.expression :: itemExpressions items

def fieldExpressions : List (String × Tree) → List (String × Expression)
  | [] => []
  | (key, value) :: fields => (key, value.expression) :: fieldExpressions fields

end

variable {items : List Tree} {fields : List (String × Tree)} {t : Tree}

theorem itemExpressions_eq_map (items : List Tree) :
    itemExpressions items = items.map expression := by
  induction items with
  | nil => rfl
  | cons item items ih => rw [itemExpressions, ih, List.map_cons]

theorem fieldExpressions_eq_map (fields : List (String × Tree)) :
    fieldExpressions fields = fields.map fun field => (field.1, field.2.expression) := by
  induction fields with
  | nil => rfl
  | cons field fields ih => rw [fieldExpressions, ih, List.map_cons]

theorem Printable.wellFormed (printable : t.Printable) : t.expression.WellFormed (·.isFinite) := by
  induction printable with
  | undefined | null | boolean | integer => exact .literal trivial
  | float finite => exact .literal finite
  | string isQuotable => exact .literal isQuotable
  | array _ ih =>
    rw [expression, itemExpressions_eq_map]
    exact .array (List.forall_mem_map.2 ih)
  | object keys _ ih =>
    rw [expression, fieldExpressions_eq_map]
    exact .object (List.forall_mem_map.2 keys) (List.forall_mem_map.2 ih)

theorem Printable.depth_expression_le {n : Nat} (printable : t.Printable) (room : t.depth ≤ n) :
    t.expression.depth ≤ n := by
  induction printable generalizing n with
  | undefined | null | boolean | integer | float | string =>
    rw [expression, Expression.depth_literal]
    exact n.zero_le
  | array _ ih =>
    rw [depth_array] at room
    rw [expression, itemExpressions_eq_map, ← Nat.add_zero (Expression.depth _),
      Expression.depth_array_add_le_iff]
    have fits := List.greatest_le_iff.1 (Nat.le_sub_one_of_lt room)
    refine ⟨by omega, List.forall_mem_map.2 fun item member => ?_⟩
    have shallow := ih item member (fits item member)
    omega
  | object _ _ ih =>
    rw [depth_object] at room
    rw [expression, fieldExpressions_eq_map, ← Nat.add_zero (Expression.depth _),
      Expression.depth_object_add_le_iff]
    have fits := List.greatest_le_iff.1 (Nat.le_sub_one_of_lt room)
    refine ⟨by omega, List.forall_mem_map.2 fun field member => ?_⟩
    have shallow := ih field member (fits field member)
    change field.2.expression.depth + 1 ≤ n
    omega

end Tree

namespace Expression

variable {scope : Scope} {items : List Tree} {fields : List (String × Tree)} {t : Tree}

/-- Evaluating the tree's expression is storing the tree. -/
def EvaluatesTo (scope : Scope) (t : Tree) : Prop :=
  ∀ s, t.expression.evaluate? scope s = (some (Store.build t s).1, (Store.build t s).2)

theorem evaluateItems_expressions (each : ∀ item ∈ items, EvaluatesTo scope item) (s : Store) :
    evaluateItems scope (Tree.itemExpressions items) s = Store.buildItems items s := by
  induction items generalizing s with
  | nil => rfl
  | cons item items ih =>
    obtain ⟨first, others⟩ := List.forall_mem_cons.1 each
    rw [Tree.itemExpressions, evaluateItems_cons, first s, ih others, Option.getD_some,
      Store.buildItems_cons]

theorem evaluateEntries_expressions (each : ∀ field ∈ fields, EvaluatesTo scope field.2)
    (s : Store) :
    evaluateEntries scope (Tree.fieldExpressions fields) s = Store.buildFields fields s := by
  induction fields generalizing s with
  | nil => rfl
  | cons field fields ih =>
    obtain ⟨key, value⟩ := field
    obtain ⟨first, others⟩ := List.forall_mem_cons.1 each
    rw [Tree.fieldExpressions, evaluateEntries_cons, first s, ih others, Option.getD_some,
      Store.buildFields_cons]

theorem evaluatesTo_of_printable (scope : Scope) (printable : t.Printable) :
    EvaluatesTo scope t := by
  induction printable with
  | undefined | null | boolean | integer | float | string => exact fun s => rfl
  | array _ ih =>
    intro s
    rw [Tree.expression, evaluate_array, evaluateItems_expressions ih, Store.build_array]
  | object _ _ ih =>
    intro s
    rw [Tree.expression, evaluate_object, evaluateEntries_expressions ih, Store.build_object]

end Expression

end Bindlang
