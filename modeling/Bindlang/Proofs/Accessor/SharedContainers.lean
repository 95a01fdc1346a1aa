import Bindlang.Proofs.Accessor.FreshContainers
import Bindlang.Proofs.Accessor.Hosts

namespace Bindlang

open Store

variable {s t u : Store} {scope : Scope} {e : Expression} {p : Path} {v new : Value} {key : String}

namespace Store

inductive Changes (s : Store) (v new : Value) : Store → Prop
  | set (key : String) : Changes s v new (set v key new s).2
  | push : Changes s v new (push v new s).2

/-- Then `new` is found under the key, in an object or as the last item of an array. -/
inductive Puts (s : Store) : Value → String → Value → Store → Prop
  | set {ref : ObjectRef} (key : String) (new : Value) :
      Puts s (.object ref) key new (set (.object ref) key new s).2
  | push {ref : ArrayRef} {key : String} (new : Value)
      (next : Text.readNatural? key.toList = some (s.items ref).length) :
      Puts s (.array ref) key new (push (.array ref) new s).2

theorem Changes.extends (changes : t.Changes v new u) (grows : s.Extends t) (fresh : ¬s.Has v) :
    s.Extends u := by
  cases changes with
  | set key =>
    cases v with
    | object ref =>
      refine ⟨grows.arrays, fun i fields here =>
        Array.getElem?_modify_of_ne (grows.objects i fields here) ?_⟩
      rintro rfl
      exact fresh (Array.getElem?_eq_some_iff.1 here).1
    | _ => exact grows
  | push =>
    cases v with
    | array ref =>
      refine ⟨fun i items here => Array.getElem?_modify_of_ne (grows.arrays i items here) ?_,
        grows.objects⟩
      rintro rfl
      exact fresh (Array.getElem?_eq_some_iff.1 here).1
    | _ => exact grows

theorem fields_setField (s : Store) (ref ref' : ObjectRef) (key : String) (new : Value) :
    (s.setField (.object ref) key new).fields ref' =
      if ref' = ref ∧ s.Has (.object ref) then (s.fields ref').put key new else s.fields ref' := by
  obtain ⟨i⟩ := ref
  obtain ⟨j⟩ := ref'
  simp only [ObjectRef.mk.injEq]
  exact Array.getD_getElem?_modify s.objects (Fields.put key new) .empty j i

theorem items_pushItem (s : Store) (ref ref' : ArrayRef) (new : Value) :
    (s.pushItem (.array ref) new).items ref' =
      if ref' = ref ∧ s.Has (.array ref) then s.items ref' ++ [new] else s.items ref' := by
  obtain ⟨i⟩ := ref
  obtain ⟨j⟩ := ref'
  simp only [ArrayRef.mk.injEq]
  exact Array.getD_getElem?_modify s.arrays (· ++ [new]) [] j i

theorem Changes.member_cases (changes : s.Changes v new u) (w : Value) (name : String) :
    u.member? w name = s.member? w name ∨ w = v ∧ u.member? w name = some new := by
  cases changes with
  | set key =>
    cases v with
    | object ref =>
      cases w with
      | object ref' =>
        change ((s.setField (.object ref) key new).fields ref').find? name = _ ∨
          _ ∧ ((s.setField (.object ref) key new).fields ref').find? name = _
        rw [fields_setField]
        split
        · rename_i both
          rw [Fields.find_put, both.1]
          split
          · exact .inr ⟨rfl, rfl⟩
          · exact .inl rfl
        · exact .inl rfl
      | _ => exact .inl rfl
    | _ => exact .inl rfl
  | push =>
    cases v with
    | array ref =>
      cases w with
      | array ref' =>
        change ((Text.readNatural? name.toList).bind fun i =>
            ((s.pushItem (.array ref) new).items ref')[i]?) = _ ∨
          _ ∧ ((Text.readNatural? name.toList).bind fun i =>
            ((s.pushItem (.array ref) new).items ref')[i]?) = _
        rw [items_pushItem]
        split
        · rename_i both
          unfold member?
          rw [both.1]
          cases Text.readNatural? name.toList with
          | none => exact .inl rfl
          | some i => exact (List.getElem?_concat_cases (s.items ref) new i).imp_right (⟨rfl, ·⟩)
        · exact .inl rfl
      | _ => exact .inl rfl
    | _ => exact .inl rfl

theorem Puts.member_eq (puts : s.Puts v key new u) (has : s.Has v) : u.member? v key = some new := by
  cases puts with
  | @set ref =>
    change ((s.setField (.object ref) key new).fields ref).find? key = some new
    rw [fields_setField, if_pos ⟨rfl, has⟩, Fields.find_put, if_pos rfl]
  | @push ref _ _ next =>
    change ((Text.readNatural? key.toList).bind fun i =>
      ((s.pushItem (.array ref) new).items ref)[i]?) = some new
    rw [items_pushItem, if_pos ⟨rfl, has⟩, next, Option.bind_some, List.getElem?_concat_length]

end Store

/-- On its way along the path a walk comes to a value, and goes on to what is new in it. -/
def Path.Meets (s : Store) (path : Path) (root v new : Value) : Prop :=
  ∃ (before : Path) (segment : Segment) (after : Path), path = before ++ segment :: after ∧
    before.find? s root = some v ∧ s.member? v segment.name = some new

def Scope.Meets (s : Store) (scope : Scope) (path : Path) (v new : Value) : Prop :=
  ∃ first ∈ path.head?, path.Meets s (scope.root s first.name) v new

theorem Path.find_change (changes : s.Changes v new u) {root found : Value}
    (here : p.find? s root = some found) :
    p.find? u root = some found ∨ p.Meets u root v new := by
  induction p generalizing root with
  | nil => exact .inl here
  | cons segment path ih =>
    obtain ⟨member, first, others⟩ := Option.bind_eq_some_iff.1 here
    -- The walk goes on as before up to the first step that finds what is new.
    rcases changes.member_cases root segment.name with kept | ⟨rfl, changed⟩
    · have same : u.member? root segment.name = some member := kept.trans first
      rcases ih others with still | ⟨before, next, after, rfl, leads, meets⟩
      · exact .inl (by rw [find?, same, Option.bind_some, still])
      · refine .inr ⟨segment :: before, next, after, rfl, ?_, meets⟩
        rw [find?, same, Option.bind_some, leads]
    · exact .inr ⟨[], segment, path, rfl, rfl, changed⟩

namespace Scope

theorem root_change (changes : s.Changes v new u) (scope : Scope) (name : String) :
    scope.root u name = scope.root s name ∨
      scope.root u name = v ∧ u.member? v name = some new := by
  obtain ⟨primary, extra⟩ := scope
  cases extra with
  | none => exact .inl rfl
  | some extra =>
    rw [root_some, root_some]
    rcases changes.member_cases extra name with kept | ⟨rfl, changed⟩
    · exact .inl (by rw [kept])
    · exact .inr ⟨by rw [changed, Option.isSome_some, if_pos rfl], changed⟩

theorem find_change (changes : s.Changes v new u) {found : Value}
    (here : scope.find? s p = some found) :
    scope.find? u p = some found ∨ scope.Meets u p v new := by
  cases p with
  | nil => cases here
  | cons first others =>
    rcases scope.root_change changes first.name with same | ⟨same, changed⟩
    · rw [find?, Meets, same]
      refine (Path.find_change changes here).imp_right fun meets => ⟨first, rfl, ?_⟩
      rw [same]
      exact meets
    · refine .inr ⟨first, rfl, [], first, others, rfl, ?_, changed⟩
      rw [same]
      rfl

end Scope

/-- What there was stays, no function is called, and the next reading gives the like. -/
structure Accessor.OnlyReads (a : Accessor) (s : Store) (outcome : Option Value) (t : Store) :
    Prop where
  kept : s.Extends t
  functions : t.functions = s.functions
  uncalled : ∀ (σ : Type) (host : Host σ) (own : σ), host.read? a (s, own) = (outcome, t, own)
  again : Option.Rel (s.Alike t (a.read? t).2) outcome (a.read? t).1

/-- New containers, which can be changed at will: what was there before stays as it is. -/
structure Store.Apart (s t : Store) (containers : List Value) : Prop where
  gains : s.Gains containers t
  changed : ∀ u, Relation.ReflTransGen (fun t u => ∃ c ∈ containers, ∃ new, t.Changes c new u) t u →
    s.Extends u ∧ ∀ a : Accessor, a.CallFree → a.Within s →
      Option.Rel (s.Alike (a.read? t).2 (a.read? u).2) (a.read? t).1 (a.read? u).1

/-- What is put into the member that a path leads to is found by all who come to it. -/
structure Scope.Shares (scope : Scope) (s : Store) (p : Path) (v : Value) : Prop where
  stored : ∃ first ∈ p.head?, ∃ before last holder, p = before ++ [last] ∧
    (Accessor.pluck before (scope.root s first.name)).read? s = (some holder, s) ∧
    s.member? holder last.name = some v
  seen : ∀ key new u, s.Puts v key new u → ∀ (q : Path) root, q.CallFree →
    (Accessor.pluck q root).read? u = (some v, u) →
    (Accessor.pluck (q ++ [⟨key, false⟩]) root).read? u = (some new, u)
  later : ∀ new u, s.Changes v new u → ∀ (q : Path) (scope' : Scope) found, q.CallFree →
    (Accessor.expression (.path q) scope').read? s = (some found, s) →
    (Accessor.expression (.path q) scope').read? u = (some found, u) ∨ scope'.Meets u q v new

variable {outcome : Option Value} {containers : List Value}

theorem Store.apart_of_gains (closed : s.Closed) (gains : s.Gains containers t) :
    s.Apart t containers := by
  refine ⟨gains, fun u run => ?_⟩
  have grows : s.Extends u := by
    induction run with
    | refl => exact gains.grows
    | tail _ step ih =>
      obtain ⟨c, member, new, changes⟩ := step
      exact changes.extends ih (gains.fresh c member)
  exact ⟨grows, fun a callFree within => a.alike_reads closed callFree within gains.grows grows⟩

theorem Scope.shares_of_find (has : s.Has v) (callFree : p.CallFree)
    (found : scope.find? s p = some v) : scope.Shares s p v where
  stored := by
    cases p with
    | nil => cases found
    | cons first others =>
      have split := List.dropLast_concat_getLast (List.cons_ne_nil first others)
      generalize List.dropLast (first :: others) = before,
        List.getLast (first :: others) (List.cons_ne_nil first others) = last at split
      rw [find?, ← split, Path.find_append] at found
      obtain ⟨holder, leads, stored⟩ := Option.bind_eq_some_iff.1 found
      rw [← split] at callFree
      have uncalled : Path.CallFree before := (List.forall_mem_append.1 callFree).1
      refine ⟨first, rfl, before, last, holder, split.symm, ?_, ?_⟩
      · rw [Accessor.read?, Path.walk_of_callFree uncalled, leads]
      · simpa [Path.find?] using stored
  seen := by
    intro key new u puts q root uncalled leads
    have longer : (q ++ [⟨key, false⟩] : Path).CallFree :=
      List.forall_mem_append.2 ⟨uncalled, List.forall_mem_singleton.2 rfl⟩
    rw [Accessor.read?, Path.walk_of_callFree uncalled] at leads
    rw [Accessor.read?, Path.walk_of_callFree longer, Path.find_append, (Prod.mk.inj leads).1,
      Option.bind_some, Path.find?, puts.member_eq has, Option.bind_some, Path.find?]
  later := by
    intro new u changes q scope' found uncalled leads
    rw [Accessor.read?, Expression.evaluate_of_callFree uncalled] at leads
    rw [Accessor.read?, Expression.evaluate_of_callFree uncalled]
    exact (find_change changes (Prod.mk.inj leads).1).imp_left fun still => by rw [still]

/-- Literal containers are new at each reading, and what paths lead to is shared. -/
theorem Accessor.read_callFree (closed : s.Closed) (within : scope.Within s) (callFree : e.CallFree)
    (read : (expression e scope).read? s = (outcome, t)) :
    (expression e scope).OnlyReads s outcome t ∧
    (e.IsContainer → ∃ containers, ∃ v ∈ containers, outcome = some v ∧
      Built scope s t e outcome containers ∧ s.Apart t containers) ∧
    ∀ p v, e = .path p → outcome = some v → t = s ∧ scope.Shares s p v := by
  obtain ⟨containers, built, gains⟩ := Expression.buildsAnew closed within callFree s (.refl s)
  have evaluated : e.evaluate? scope s = (outcome, t) := read
  rw [evaluated] at built gains
  refine ⟨⟨gains.grows, gains.functions, ?_, ?_⟩, ?_, ?_⟩
  · intro σ host own
    rw [Host.read?, Host.evaluate_of_callFree callFree, Host.inStore, evaluated]
  · have again := alike_reads closed (a := expression e scope) callFree within (.refl s) gains.grows
    rwa [read] at again
  · intro container
    obtain ⟨v, member, rfl⟩ := built.exists_container container
    exact ⟨containers, v, member, rfl, built, apart_of_gains closed gains⟩
  · rintro p v rfl rfl
    have uncalled := Expression.forall_paths_path.1 callFree
    rw [Expression.evaluate_of_callFree uncalled] at evaluated
    obtain ⟨found, rfl⟩ := Prod.mk.inj evaluated
    exact ⟨rfl, scope.shares_of_find (scope.has_find closed within found) uncalled found⟩

theorem Accessor.read_array_of_shared :
    let s := (newObject (.ofList [("a", .array ⟨0⟩)]) (newArray [.integer 1] empty).2).2
    let scope : Scope := ⟨.object ⟨0⟩, none⟩
    let a : Path := [⟨"a", false⟩]
    let t := (newArray [.array ⟨0⟩, .array ⟨1⟩] (newArray [] s).2).2
    (∃ containers, .array ⟨2⟩ ∈ containers ∧ s.Apart t containers) ∧ scope.Shares s a (.array ⟨0⟩) := by
  intro s scope a t
  have closed : s.Closed := (closed_empty.newArray (by decide)).newObject (by decide)
  have within : scope.Within s := ⟨by decide, fun _ none => nomatch none⟩
  have callFree : (Expression.array [.path a, .array []]).CallFree := by
    simp [Expression.CallFree, Expression.paths, Expression.pathsOfItems, Path.CallFree, a]
  constructor
  · obtain ⟨_, anew, _⟩ := read_callFree closed within callFree rfl
    obtain ⟨containers, v, member, same, _, apart⟩ := anew trivial
    cases same
    exact ⟨containers, member, apart⟩
  · have callFree : (Expression.path a).CallFree := by
      simp [Expression.CallFree, Expression.paths, Path.CallFree, a]
    exact ((read_callFree closed within callFree rfl).2.2 a _ rfl rfl).2

end Bindlang
