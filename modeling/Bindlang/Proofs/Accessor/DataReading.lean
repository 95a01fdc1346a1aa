import Bindlang.Proofs.Accessor.CallOrder
import Bindlang.Proofs.Store.TreeBuilding

namespace Bindlang

open Store

def Tree.member? (t : Tree) (key : String) : Option Tree :=
  match t with
  | object fields => (Keyed.find? Prod.fst key fields).map Prod.snd
  | array items => (Text.readNatural? key.toList).bind fun i => items[i]?
  | _ => none

/-- The tree that a path leads to, if there is nothing that can be called. -/
def Path.reach? : Path → Tree → Option Tree
  | [], t => some t
  | segment :: path, t =>
    if segment.invoked then none else (t.member? segment.name).bind (reach? path)

structure Data where
  primary : Tree
  extra : Option Tree

def Data.root (data : Data) (name : String) : Tree :=
  (data.extra.filter fun extra => (extra.member? name).isSome).getD data.primary

def Literal.tree : Literal → Tree
  | string s => .string s
  | integer n => .integer n
  | float x => .float x
  | boolean b => .boolean b
  | null => .null
  | undefined => .undefined

namespace Expression

mutual

def tree? (data : Data) : Expression → Option Tree
  | literal l => some l.tree
  | array items => some (.array (itemTrees data items))
  | object entries => some (.object (Keyed.ofList Prod.fst (entryTrees data entries)))
  | path [] => none
  | path (first :: others) => Path.reach? (first :: others) (data.root first.name)

def itemTrees (data : Data) : List Expression → List Tree
  | [] => []
  | item :: items => (item.tree? data).getD .undefined :: itemTrees data items

def entryTrees (data : Data) : List (String × Expression) → List (String × Tree)
  | [] => []
  | (key, value) :: entries => (key, (value.tree? data).getD .undefined) :: entryTrees data entries

end

end Expression

namespace Store

variable {s t : Store} {scope : Scope} {data : Data} {v : Value} {tree : Tree} {found : Option Value}
  {given : Option Tree}

theorem Unfolds.member (unfolds : s.Unfolds v tree) (key : String) :
    Option.Rel s.Unfolds (s.member? v key) (tree.member? key) := by
  cases unfolds with
  | undefined | null | boolean | integer | float | string | function => exact .none
  | @array ref members here each =>
    rw [member?, items, here, Option.getD_some, Tree.member?]
    cases Text.readNatural? key.toList with
    | none => exact .none
    | some i =>
      rw [Option.bind_some, Option.bind_some, List.getElem?_map, List.getElem?_map]
      exact Option.rel_map fun m found => each m (List.mem_of_getElem? found)
  | @object ref fields members here entries each =>
    rw [member?, Store.fields, here, Option.getD_some, Fields.find?, entries, Tree.member?, Keyed.find?,
      Keyed.find?, List.find?_map, List.find?_map, Option.map_map, Option.map_map]
    exact Option.rel_map fun m found => each m (List.mem_of_find?_eq_some found)

theorem Unfolds.orUndefined (unfolds : Option.Rel s.Unfolds found given) :
    s.Unfolds (found.getD .undefined) (given.getD .undefined) := by
  cases unfolds with
  | none => exact .undefined
  | some unfolds => exact unfolds

theorem Unfolds.map_tree (unfolds : Option.Rel s.Unfolds found given) : found.map s.tree = given := by
  cases unfolds with
  | none => rfl
  | some unfolds => exact congrArg some unfolds.tree_eq

theorem Covers.trans {u : Store} (later : u.Covers t) (covers : t.Covers s) : u.Covers s :=
  ⟨covers.grows.trans later.grows, later.functions.trans covers.functions⟩

/-- The store has the data behind the scope, and no functions. -/
structure Shows (s : Store) (scope : Scope) (data : Data) : Prop where
  noFunctions : s.functions = #[]
  primary : s.Unfolds scope.primary data.primary
  extra : Option.Rel s.Unfolds scope.extra data.extra

theorem Shows.root (shows : s.Shows scope data) (name : String) :
    s.Unfolds (scope.root s name) (data.root name) := by
  obtain ⟨_, primary, extra⟩ := shows
  obtain ⟨_, first⟩ := scope
  obtain ⟨_, second⟩ := data
  cases extra with
  | none => exact primary
  | @some v behind unfolds =>
    rw [Scope.root_some, (unfolds.member name).isSome_eq, Data.root, Option.filter_some]
    cases (behind.member? name).isSome with
    | false => exact primary
    | true => exact unfolds

end Store

variable {s : Store} {scope : Scope} {data : Data} {v : Value} {t : Tree}

namespace Expression

end Expression

end Bindlang
