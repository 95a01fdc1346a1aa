import Bindlang.Proofs.Accessor.FreshContainers

namespace Bindlang

open Store

variable {s t u : Store} {scope scope' : Scope} {e : Expression} {p : Path} {v : Value}

/-- The same member under the first name of the path, or none in both. -/
def Scope.AgreeOn (s : Store) (scope scope' : Scope) (p : Path) : Prop :=
  ∀ first ∈ p.head?, s.member? (scope.root s first.name) first.name =
    s.member? (scope'.root s first.name) first.name

theorem Scope.find_congr (agree : scope.AgreeOn s scope' p) : scope.find? s p = scope'.find? s p := by
  cases p with
  | nil => rfl
  | cons first others => rw [find?, find?, Path.find?, Path.find?, agree first rfl]

namespace Expression

def SameIn (s : Store) (scope scope' : Scope) (e : Expression) : Prop :=
  ∀ t, s.Extends t → e.evaluate? scope t = e.evaluate? scope' t ∧
    s.Extends (e.evaluate? scope t).2

theorem evaluateEach_congr {α : Type} {labelled : List (α × Expression)}
    (each : ∀ part ∈ labelled, SameIn s scope scope' part.2) (grows : s.Extends t) :
    evaluateEach scope labelled t = evaluateEach scope' labelled t ∧
      s.Extends (evaluateEach scope labelled t).2 := by
  induction labelled generalizing t with
  | nil => exact ⟨rfl, grows⟩
  | cons part labelled ih =>
    obtain ⟨first, others⟩ := List.forall_mem_cons.1 each
    obtain ⟨same, growsFirst⟩ := first t grows
    obtain ⟨sameOthers, growsOthers⟩ := ih others growsFirst
    rw [evaluateEach_cons, evaluateEach_cons, ← same, ← sameOthers]
    exact ⟨rfl, growsOthers⟩

theorem sameIn_of_agreeOn (closed : s.Closed) (within : scope.Within s) (within' : scope'.Within s)
    (callFree : e.CallFree) (agree : ∀ p ∈ e.paths, scope.AgreeOn s scope' p) :
    SameIn s scope scope' e := by
  induction e using inductionOn with
  | literal l => exact fun t grows => ⟨rfl, grows⟩
  | array items ih =>
    intro t grows
    have uncalled := forall_paths_array.1 callFree
    have agreeEach := forall_paths_array.1 agree
    obtain ⟨same, growsItems⟩ := evaluateEach_congr (forall_unlabelled fun item member =>
      ih item member (uncalled item member) (agreeEach item member)) grows
    rw [evaluate_array, evaluate_array, evaluateItems_eq, evaluateItems_eq, ← same]
    exact ⟨rfl, growsItems.trans (extends_newArray _ _)⟩
  | object entries ih =>
    intro t grows
    have uncalled := forall_paths_object.1 callFree
    have agreeEach := forall_paths_object.1 agree
    obtain ⟨same, growsEntries⟩ := evaluateEach_congr (fun entry member =>
      ih entry member (uncalled entry member) (agreeEach entry member)) grows
    rw [evaluate_object, evaluate_object, evaluateEntries_eq, evaluateEntries_eq, ← same]
    exact ⟨rfl, growsEntries.trans (extends_newObject _ _)⟩
  | path p =>
    intro t grows
    have uncalled := forall_paths_path.1 callFree
    have same := Scope.find_congr (forall_paths_path.1 agree)
    rw [evaluate_of_callFree uncalled, evaluate_of_callFree uncalled,
      Scope.find_extends closed grows within, Scope.find_extends closed grows within', same]
    exact ⟨rfl, grows⟩

end Expression

namespace Store

def Names (s : Store) (v : Value) (name : String) : Prop :=
  match v with
  | .object ref => name ∈ (s.fields ref).names
  | .array ref => ∃ i, Text.readNatural? name.toList = some i ∧ i < (s.items ref).length
  | _ => False

theorem names_iff {name : String} : s.Names v name ↔ (s.member? v name).isSome = true := by
  cases v with
  | object ref => simp [Names, member?, Fields.find?, Fields.names, Keyed.find?]
  | array ref =>
    rw [Names, member?]
    cases Text.readNatural? name.toList with
    | none => simp
    | some i => simp
  | _ => simp [Names, member?]

end Store

theorem Accessor.read_of_names {first : Segment} {extra : Value} (begins : first ∈ p.head?)
    (names : s.Names extra first.name) (primary : Value) :
    (expression (.path p) ⟨primary, some extra⟩).read? s = (pluck p extra).read? s := by
  cases p with
  | nil => cases begins
  | cons first others =>
    cases begins
    rw [read?, read?, Expression.evaluate_path, Scope.root_some, if_pos (names_iff.1 names)]

theorem Accessor.read_of_not_names {first : Segment} {extra : Value} (begins : first ∈ p.head?)
    (noName : ¬s.Names extra first.name) (primary : Value) :
    (expression (.path p) ⟨primary, some extra⟩).read? s =
      (expression (.path p) ⟨primary, none⟩).read? s := by
  cases p with
  | nil => cases begins
  | cons first others =>
    cases begins
    rw [read?, read?, Expression.evaluate_path, Expression.evaluate_path, Scope.root_some,
      if_neg (mt names_iff.2 noName)]
    rfl

/-- Without calls an expression sees only the members under the first names of its paths. -/
theorem Accessor.read_depends_on_first_names (s : Store) :
    (∀ e scope scope', s.Closed → scope.Within s → scope'.Within s → e.CallFree →
      (∀ p ∈ e.paths, scope.AgreeOn s scope' p) →
      (expression e scope).read? s = (expression e scope').read? s ∧
      ∀ t u, s.Extends t → s.Extends u →
        Option.Rel (s.Alike ((expression e scope).read? t).2 ((expression e scope').read? u).2)
          ((expression e scope).read? t).1 ((expression e scope').read? u).1) ∧
    ∀ (p : Path) (first : Segment) (extra : Value), first ∈ p.head? →
      (s.Names extra first.name → ∀ primary,
        (expression (.path p) ⟨primary, some extra⟩).read? s = (pluck p extra).read? s) ∧
      (¬s.Names extra first.name → ∀ primary,
        (expression (.path p) ⟨primary, some extra⟩).read? s =
          (expression (.path p) ⟨primary, none⟩).read? s) := by
  constructor
  · intro e scope scope' closed within within' callFree agree
    have same := Expression.sameIn_of_agreeOn closed within within' callFree agree
    refine ⟨(same s (.refl s)).1, fun t u grows grows' => ?_⟩
    have alike := alike_reads closed (a := expression e scope) callFree within grows grows'
    have sameThere : (expression e scope').read? u = (expression e scope).read? u :=
      (same u grows').1.symm
    rwa [sameThere]
  · intro p first extra begins
    exact ⟨read_of_names begins, read_of_not_names begins⟩

theorem Accessor.read_of_moved_member :
    let holder := (newObject (.ofList [("x", .array ⟨0⟩)]) (newArray [] empty).2).2
    let s := (newObject (.ofList [("y", .null)]) holder).2
    let x : Segment := ⟨"x", false⟩
    let z : Segment := ⟨"z", false⟩
    let e : Expression := .array [.path [x, z], .path [z]]
    (expression e ⟨.object ⟨0⟩, none⟩).read? s =
        (expression e ⟨.object ⟨1⟩, some (.object ⟨0⟩)⟩).read? s ∧
      (expression (.path [x, z]) ⟨.object ⟨1⟩, some (.object ⟨0⟩)⟩).read? s =
        (pluck [x, z] (.object ⟨0⟩)).read? s ∧
      (expression (.path [z]) ⟨.object ⟨1⟩, some (.object ⟨0⟩)⟩).read? s =
        (expression (.path [z]) ⟨.object ⟨1⟩, none⟩).read? s := by
  intro holder s x z e
  have closedHolder : holder.Closed := (closed_empty.newArray (by decide)).newObject (by decide)
  have closed : s.Closed := closedHolder.newObject (by decide)
  have within : Scope.Within ⟨.object ⟨0⟩, none⟩ s := ⟨by decide, fun _ none => nomatch none⟩
  have within' : Scope.Within ⟨.object ⟨1⟩, some (.object ⟨0⟩)⟩ s :=
    ⟨by decide, fun _ same => Option.some.inj same ▸ (by decide : s.Has (.object ⟨0⟩))⟩
  have paths : e.paths = [[x, z], [z]] := by
    simp [e, Expression.paths, Expression.pathsOfItems]
  have callFree : e.CallFree := by
    rw [Expression.CallFree, paths]
    unfold Path.CallFree
    decide
  have agree : ∀ p ∈ e.paths,
      Scope.AgreeOn s ⟨.object ⟨0⟩, none⟩ ⟨.object ⟨1⟩, some (.object ⟨0⟩)⟩ p := by
    rw [paths]
    unfold Scope.AgreeOn
    decide +kernel
  obtain ⟨same, shadows⟩ := read_depends_on_first_names s
  refine ⟨(same e _ _ closed within within' callFree agree).1, ?_, ?_⟩
  · exact (shadows [x, z] x _ rfl).1 (names_iff.2 (by decide +kernel)) _
  · exact (shadows [z] z _ rfl).2 (mt names_iff.1 (by decide +kernel)) _

end Bindlang
