import Bindlang.Proofs.Accessor.FreshContainers
import Bindlang.Proofs.Accessor.Hosts

namespace Bindlang

open Store

namespace Host

variable {σ α β : Type}

def beside (outcome : α × Store × σ) (calls : List FunctionRef) :
    α × Store × σ × List FunctionRef :=
  (outcome.1, outcome.2.1, outcome.2.2, calls)

/-- The host that also notes which functions are called, the last one at the end. -/
def noting (host : Host σ) : Host (σ × List FunctionRef) :=
  ⟨fun ref state => beside (host.invoke ref (state.1, state.2.1)) (state.2.2 ++ [ref])⟩

def noted (action : StateM (Store × σ × List FunctionRef) α) (state : Store × σ) :
    List FunctionRef :=
  (action (state.1, state.2, [])).2.2.2

def calls (host : Host σ) (a : Accessor) (state : Store × σ) : List FunctionRef :=
  noted (host.noting.read? a) state

def callee : Value → List FunctionRef
  | .function ref => [ref]
  | _ => []

def called (segment : Segment) (v : Value) (s : Store) : List FunctionRef :=
  match s.member? v segment.name with
  | none => []
  | some member => if segment.invoked then callee member else []

/-- The functions at the called segments of a path, as far as the walk along it comes. -/
def callsAlong (host : Host σ) : Path → Value → Store × σ → List FunctionRef
  | [], _, _ => []
  | segment :: path, v, state =>
    called segment v state.1 ++
      match (host.follow? segment v state).1 with
      | none => []
      | some next => callsAlong host path next (host.follow? segment v state).2

/-- The second action does what the first does, and notes its calls behind those before. -/
def Notes (action : StateM (Store × σ) α) (noted : StateM (Store × σ × List FunctionRef) α)
    (made : Store × σ → List FunctionRef) : Prop :=
  ∀ state before, noted (state.1, state.2, before) = beside (action state) (before ++ made state)

variable {host : Host σ} {scope : Scope} {x : StateM (Store × σ) α}
  {x' : StateM (Store × σ × List FunctionRef) α} {f : α → StateM (Store × σ) β}
  {f' : α → StateM (Store × σ × List FunctionRef) β} {made : Store × σ → List FunctionRef}
  {more : α → Store × σ → List FunctionRef}

theorem Notes.noted_eq (notes : Notes x x' made) (state : Store × σ) : noted x' state = made state := by
  rw [noted, notes state [], beside, List.nil_append]

theorem Notes.toNoted (notes : Notes x x' made) : Notes x x' (noted x') := by
  have same : noted x' = made := funext notes.noted_eq
  rwa [same]

theorem notes_inStore (action : StateM Store α) :
    Notes (inStore action : StateM (Store × σ) α) (inStore action) fun _ => [] := by
  intro state before
  rw [List.append_nil]
  rfl

theorem notes_pure (a : α) : Notes (pure a : StateM (Store × σ) α) (pure a) fun _ => [] :=
  notes_inStore (pure a)

theorem Notes.bind (first : Notes x x' made) (next : ∀ a, Notes (f a) (f' a) (more a)) :
    Notes (x >>= f) (x' >>= f') fun state => made state ++ more (x state).1 (x state).2 := by
  intro state before
  change f' (x' (state.1, state.2, before)).1 (x' (state.1, state.2, before)).2 = _
  rw [first state before, ← List.append_assoc]
  exact next (x state).1 (x state).2 (before ++ made state)

theorem notes_call (host : Host σ) (v : Value) :
    Notes (host.call v) (host.noting.call v) fun _ => callee v := by
  cases v with
  | function ref => exact fun _ _ => rfl
  | _ => exact notes_pure none

theorem notes_follow (host : Host σ) (segment : Segment) (v : Value) :
    Notes (host.follow? segment v) (host.noting.follow? segment v)
      fun state => called segment v state.1 := by
  intro state before
  change _ = beside _ (before ++ called segment v state.1)
  unfold follow? called
  cases state.1.member? v segment.name with
  | none => exact notes_pure none state before
  | some member =>
    cases segment.invoked with
    | false => exact notes_pure (some member) state before
    | true => exact notes_call host member state before

theorem notes_walk (host : Host σ) (p : Path) (v : Value) :
    Notes (host.walk? p v) (host.noting.walk? p v) (host.callsAlong p v) := by
  induction p generalizing v with
  | nil => exact notes_pure (some v)
  | cons segment path ih =>
    intro state before
    have first := notes_follow host segment v state before
    unfold walk? callsAlong
    rw [first, ← List.append_assoc]
    cases reached : host.follow? segment v state with
    | mk next state' =>
      cases next with
      | none => exact notes_pure none state' (before ++ called segment v state.1)
      | some next => exact ih next state' (before ++ called segment v state.1)

theorem calls_pluck (host : Host σ) (p : Path) (v : Value) (state : Store × σ) :
    host.calls (.pluck p v) state = host.callsAlong p v state :=
  (notes_walk host p v).noted_eq state

theorem calls_path (host : Host σ) (scope : Scope) (first : Segment) (others : Path)
    (state : Store × σ) :
    host.calls (.expression (.path (first :: others)) scope) state =
      host.callsAlong (first :: others) (scope.root state.1 first.name) state :=
  calls_pluck host (first :: others) (scope.root state.1 first.name) state

theorem notes_path (host : Host σ) (scope : Scope) (p : Path) :
    Notes (host.evaluate? scope (.path p)) (host.noting.evaluate? scope (.path p))
      (host.calls (.expression (.path p) scope)) := by
  cases p with
  | nil => exact notes_pure none
  | cons first others =>
    intro state before
    rw [calls_path]
    exact notes_walk host (first :: others) (scope.root state.1 first.name) state before

/-- Each path calls what it calls when read alone, in the state that those before it left. -/
inductive InTurn (host : Host σ) (scope : Scope) :
    Store × σ → List Path → List FunctionRef → Store × σ → Prop
  | done (state : Store × σ) : InTurn host scope state [] [] state
  | making {s t : Store} {own : σ} {containers : List Value} {paths : List Path}
      {calls : List FunctionRef} {last : Store × σ} (gains : s.Gains containers t)
      (others : InTurn host scope (t, own) paths calls last) :
      InTurn host scope (s, own) paths calls last
  | reading {p : Path} {state : Store × σ} {paths : List Path} {calls : List FunctionRef}
      {last : Store × σ}
      (others : InTurn host scope (host.read? (.expression (.path p) scope) state).2 paths calls last) :
      InTurn host scope state (p :: paths) (host.calls (.expression (.path p) scope) state ++ calls) last

theorem InTurn.append {state between last : Store × σ} {paths more : List Path}
    {calls others : List FunctionRef} (first : host.InTurn scope state paths calls between)
    (second : host.InTurn scope between more others last) :
    host.InTurn scope state (paths ++ more) (calls ++ others) last := by
  induction first with
  | done => exact second
  | making gains _ ih => exact .making gains (ih second)
  | reading _ ih =>
    rw [List.append_assoc]
    exact .reading (ih second)

/-- The noted calls are those of the paths, read one after the other. -/
def Turns (host : Host σ) (scope : Scope) (paths : List Path) (action : StateM (Store × σ) α)
    (noted : StateM (Store × σ × List FunctionRef) α) : Prop :=
  ∃ made, Notes action noted made ∧
    ∀ state, host.InTurn scope state paths (made state) (action state).2

variable {paths : List Path} {morePaths : List Path}

theorem turns_pure (a : α) : host.Turns scope [] (pure a) (pure a) :=
  ⟨_, notes_pure a, fun state => .done state⟩

theorem turns_making {action : StateM Store α}
    (gains : ∀ s : Store, ∃ containers, s.Gains containers (action s).2) :
    host.Turns scope [] (inStore action) (inStore action) := by
  refine ⟨_, notes_inStore action, fun state => ?_⟩
  obtain ⟨containers, gains⟩ := gains state.1
  exact .making gains (.done ((action state.1).2, state.2))

theorem Turns.bind (first : host.Turns scope paths x x')
    (next : ∀ a, host.Turns scope morePaths (f a) (f' a)) :
    host.Turns scope (paths ++ morePaths) (x >>= f) (x' >>= f') := by
  obtain ⟨made, notes, inTurn⟩ := first
  choose more notesMore inTurnMore using next
  refine ⟨_, notes.bind notesMore, fun state => ?_⟩
  exact (inTurn state).append (inTurnMore (x state).1 (x state).2)

theorem Turns.map (first : host.Turns scope paths x x') (g : α → β) :
    host.Turns scope paths (g <$> x) (g <$> x') := by
  have both := first.bind fun a => turns_pure (g a)
  rwa [List.append_nil] at both

theorem turns_path (p : Path) :
    host.Turns scope [p] (host.evaluate? scope (.path p)) (host.noting.evaluate? scope (.path p)) := by
  refine ⟨_, notes_path host scope p, fun state => ?_⟩
  have turn := InTurn.reading (.done (host.read? (.expression (.path p) scope) state).2)
  rwa [List.append_nil] at turn

variable {e : Expression} {items : List Expression} {entries : List (String × Expression)}

def EvaluatesInTurn (host : Host σ) (scope : Scope) (e : Expression) : Prop :=
  host.Turns scope e.paths (host.evaluate? scope e) (host.noting.evaluate? scope e)

theorem turns_items (each : ∀ item ∈ items, host.EvaluatesInTurn scope item) :
    host.Turns scope (Expression.pathsOfItems items) (host.evaluateItems scope items)
      (host.noting.evaluateItems scope items) := by
  induction items with
  | nil => exact turns_pure []
  | cons item items ih =>
    obtain ⟨first, others⟩ := List.forall_mem_cons.1 each
    exact first.bind fun outcome => (ih others).map (outcome.getD .undefined :: ·)

theorem turns_entries (each : ∀ entry ∈ entries, host.EvaluatesInTurn scope entry.2) :
    host.Turns scope (Expression.pathsOfEntries entries) (host.evaluateEntries scope entries)
      (host.noting.evaluateEntries scope entries) := by
  induction entries with
  | nil => exact turns_pure []
  | cons entry entries ih =>
    obtain ⟨first, others⟩ := List.forall_mem_cons.1 each
    exact first.bind fun outcome => (ih others).map ((entry.1, outcome.getD .undefined) :: ·)

theorem evaluatesInTurn (host : Host σ) (scope : Scope) (e : Expression) :
    host.EvaluatesInTurn scope e := by
  induction e using Expression.inductionOn with
  | literal l => exact turns_pure (some l.value)
  | array items ih =>
    have made := (turns_items ih).bind fun values =>
      (turns_making fun s => ⟨_, gains_newArray s values⟩).map some
    rwa [List.append_nil] at made
  | object entries ih =>
    have made := (turns_entries ih).bind fun values =>
      (turns_making fun s => ⟨_, gains_newObject s (.ofList values)⟩).map some
    rwa [List.append_nil] at made
  | path p => exact turns_path p

end Host

end Bindlang
