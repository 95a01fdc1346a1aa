import Bindlang.Proofs.Store.ClosedStores

namespace Bindlang

open Store

variable {s t : Store} {scope : Scope} {v : Value} {p : Path}

namespace Path

def CallFree (path : Path) : Prop :=
  ∀ segment ∈ path, segment.invoked = false

def find? (s : Store) : Path → Value → Option Value
  | [], v => some v
  | segment :: path, v => (s.member? v segment.name).bind (find? s path)

theorem walk_of_callFree (callFree : p.CallFree) (v : Value) (s : Store) :
    p.walk? v s = (p.find? s v, s) := by
  induction p generalizing v with
  | nil => rfl
  | cons segment path ih =>
    obtain ⟨uncalled, others⟩ := List.forall_mem_cons.1 callFree
    rw [walk_cons, segment.follow_eq, uncalled, find?]
    cases s.member? v segment.name with
    | none => rfl
    | some member => exact ih others member

theorem find_append (s : Store) (p q : Path) (v : Value) :
    (p ++ q).find? s v = (p.find? s v).bind (q.find? s) := by
  induction p generalizing v with
  | nil => rfl
  | cons segment path ih =>
    rw [List.cons_append, find?, find?]
    cases s.member? v segment.name with
    | none => rfl
    | some member => exact ih member

theorem has_find (closed : s.Closed) (has : s.Has v) {found : Value}
    (here : p.find? s v = some found) : s.Has found := by
  induction p generalizing v with
  | nil =>
    cases here
    exact has
  | cons segment path ih =>
    obtain ⟨member, first, others⟩ := Option.bind_eq_some_iff.1 here
    exact ih (closed.has_member first) others

end Path

namespace Store

theorem Extends.getElem_arrays (grows : s.Extends t) {ref : ArrayRef}
    (has : s.Has (.array ref)) : t.arrays[ref.index]? = s.arrays[ref.index]? := by
  have here := Array.getElem?_eq_getElem (show ref.index < s.arrays.size from has)
  rw [here, grows.arrays _ _ here]

theorem Extends.getElem_objects (grows : s.Extends t) {ref : ObjectRef}
    (has : s.Has (.object ref)) : t.objects[ref.index]? = s.objects[ref.index]? := by
  have here := Array.getElem?_eq_getElem (show ref.index < s.objects.size from has)
  rw [here, grows.objects _ _ here]

theorem Extends.member_eq (grows : s.Extends t) (has : s.Has v) (key : String) :
    t.member? v key = s.member? v key := by
  cases v with
  | array ref => rw [member?, member?, items, items, grows.getElem_arrays has]
  | object ref => rw [member?, member?, fields, fields, grows.getElem_objects has]
  | _ => rfl

end Store

theorem Path.find_extends (closed : s.Closed) (grows : s.Extends t) (has : s.Has v) :
    p.find? t v = p.find? s v := by
  induction p generalizing v with
  | nil => rfl
  | cons segment path ih =>
    rw [find?, find?, grows.member_eq has]
    cases found : s.member? v segment.name with
    | none => rfl
    | some member => exact ih (closed.has_member found)

theorem Store.hasMember_eq (s : Store) (v : Value) (key : String) :
    s.hasMember v key = (s.member? v key).isSome := by
  cases v with
  | object ref =>
    rw [hasMember, member?, Fields.contains, Fields.names, Fields.find?, Option.isSome_map,
      Bool.eq_iff_iff, Keyed.isSome_find_iff, List.contains_iff_mem]
  | array ref =>
    rw [hasMember, member?]
    cases Text.readNatural? key.toList with
    | none => rfl
    | some i => rw [Option.any_some, Option.bind_some, Bool.eq_iff_iff, decide_eq_true_eq, isSome_getElem?]
  | _ => rfl

namespace Scope

def find? (scope : Scope) (s : Store) : Path → Option Value
  | [] => none
  | first :: others => Path.find? s (first :: others) (scope.root s first.name)

theorem root_some (primary extra : Value) (s : Store) (name : String) :
    Scope.root ⟨primary, some extra⟩ s name =
      if (s.member? extra name).isSome then extra else primary := by
  rw [← s.hasMember_eq]
  rfl

theorem root_extends (grows : s.Extends t) (within : scope.Within s) (name : String) :
    scope.root t name = scope.root s name := by
  obtain ⟨primary, extra⟩ := scope
  cases extra with
  | none => rfl
  | some extra => rw [root_some, root_some, grows.member_eq (within.extra extra rfl)]

theorem find_extends (closed : s.Closed) (grows : s.Extends t) (within : scope.Within s)
    (p : Path) : scope.find? t p = scope.find? s p := by
  cases p with
  | nil => rfl
  | cons first others =>
    rw [find?, find?, root_extends grows within,
      Path.find_extends closed grows (within.has_root s first.name)]

theorem has_find (closed : s.Closed) (within : scope.Within s) {p : Path} {found : Value}
    (here : scope.find? s p = some found) : s.Has found := by
  cases p with
  | nil => cases here
  | cons first others => exact Path.has_find closed (within.has_root s first.name) here

end Scope

namespace Expression

mutual

/-- In the order in which they are written, also in entries whose key comes again. -/
def paths : Expression → List Path
  | literal _ => []
  | array items => pathsOfItems items
  | object entries => pathsOfEntries entries
  | path p => [p]

def pathsOfItems : List Expression → List Path
  | [] => []
  | item :: items => item.paths ++ pathsOfItems items

def pathsOfEntries : List (String × Expression) → List Path
  | [] => []
  | (_, value) :: entries => value.paths ++ pathsOfEntries entries

end

variable {Holds : Path → Prop} {items : List Expression} {entries : List (String × Expression)}

theorem forall_paths_literal (l : Literal) : ∀ p ∈ (literal l).paths, Holds p := by
  simp [paths]

theorem forall_paths_path : (∀ q ∈ (path p).paths, Holds q) ↔ Holds p := by
  simp [paths]

theorem forall_paths_array :
    (∀ p ∈ (array items).paths, Holds p) ↔ ∀ item ∈ items, ∀ p ∈ item.paths, Holds p := by
  rw [paths]
  induction items with
  | nil => simp [pathsOfItems]
  | cons item items ih =>
    simp only [pathsOfItems, List.forall_mem_append, ih, List.forall_mem_cons]

theorem forall_paths_object :
    (∀ p ∈ (object entries).paths, Holds p) ↔ ∀ entry ∈ entries, ∀ p ∈ entry.2.paths, Holds p := by
  rw [paths]
  induction entries with
  | nil => simp [pathsOfEntries]
  | cons entry entries ih =>
    simp only [pathsOfEntries, List.forall_mem_append, ih, List.forall_mem_cons]

def CallFree (e : Expression) : Prop :=
  ∀ p ∈ e.paths, p.CallFree

theorem evaluate_of_callFree (callFree : p.CallFree) (scope : Scope) (s : Store) :
    (path p).evaluate? scope s = (scope.find? s p, s) := by
  cases p with
  | nil => rfl
  | cons first others => exact Path.walk_of_callFree callFree (scope.root s first.name) s

end Expression

def Accessor.CallFree : Accessor → Prop
  | constant _ => True
  | pluck path _ => path.CallFree
  | expression e _ => e.CallFree

end Bindlang
