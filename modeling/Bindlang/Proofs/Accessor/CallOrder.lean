import Bindlang.Proofs.Accessor.CallLog
import Bindlang.Proofs.Parser.DuplicatePolicies

namespace Bindlang

open Store

namespace Store

/-- The store `t` has what `s` has: the same in each container, and the same functions. -/
structure Covers (t s : Store) : Prop where
  grows : s.Extends t
  functions : t.functions = s.functions

variable {s t u : Store} {v : Value}

theorem Covers.refl (s : Store) : s.Covers s :=
  ⟨.refl s, rfl⟩

theorem Covers.gain {containers : List Value} (covers : t.Covers s) (gains : t.Gains containers u) :
    u.Covers s :=
  ⟨covers.grows.trans gains.grows, gains.functions.trans covers.functions⟩

theorem Covers.setField (covers : t.Covers s) (v : Value) (key : String) (new : Value) :
    (t.setField v key new).Covers (s.setField v key new) := by
  cases v with
  | object ref =>
    exact ⟨⟨covers.grows.arrays, Array.getElem?_modify_of_kept covers.grows.objects⟩, covers.functions⟩
  | _ => exact covers

theorem Covers.pushItem (covers : t.Covers s) (v new : Value) :
    (t.pushItem v new).Covers (s.pushItem v new) := by
  cases v with
  | array ref =>
    exact ⟨⟨Array.getElem?_modify_of_kept covers.grows.arrays, covers.grows.objects⟩, covers.functions⟩
  | _ => exact covers

theorem Covers.invoke (covers : t.Covers s) (ref : FunctionRef) (f : HostFunction) :
    (t.invoke ref f).1 = (s.invoke ref f).1 ∧ (t.invoke ref f).2.Covers (s.invoke ref f).2 := by
  cases f with
  | counter next =>
    refine ⟨rfl, ⟨covers.grows.arrays, covers.grows.objects⟩, ?_⟩
    change t.functions.setIfInBounds _ _ = s.functions.setIfInBounds _ _
    rw [covers.functions]
  | reply value pushed set =>
    have behindPush : (pushed.elim t fun both => t.pushItem both.1 both.2).Covers
        (pushed.elim s fun both => s.pushItem both.1 both.2) := by
      cases pushed with
      | none => exact covers
      | some both => exact covers.pushItem both.1 both.2
    refine ⟨rfl, ?_⟩
    cases set with
    | none => exact behindPush
    | some all => exact behindPush.setField all.1 all.2.1 all.2.2

theorem Covers.call (covers : t.Covers s) (v : Value) :
    (call v t).1 = (call v s).1 ∧ (call v t).2.Covers (call v s).2 := by
  cases v with
  | function ref =>
    unfold Store.call
    rw [covers.functions]
    cases here : s.functions[ref.index]? with
    | none => simpa only [here, true_and] using covers
    | some f =>
      obtain ⟨same, after⟩ := covers.invoke ref f
      simpa only [here, same, true_and] using after
  | _ => exact ⟨rfl, covers⟩

end Store

variable {s t : Store} {v : Value}

theorem Segment.follow_covers (segment : Segment) (covers : t.Covers s) (has : s.Has v) :
    (segment.follow? v t).1 = (segment.follow? v s).1 ∧
      (segment.follow? v t).2.Covers (segment.follow? v s).2 := by
  rw [segment.follow_eq, segment.follow_eq, covers.grows.member_eq has]
  cases s.member? v segment.name with
  | none => exact ⟨rfl, covers⟩
  | some member =>
    cases segment.invoked with
    | false => exact ⟨rfl, covers⟩
    | true => exact covers.call member

namespace Host

variable {σ : Type} {scope : Scope}

def callsInTurn (host : Host σ) (scope : Scope) : List Path → Store × σ → List FunctionRef
  | [], _ => []
  | p :: paths, state =>
    host.calls (.expression (.path p) scope) state ++
      callsInTurn host scope paths (host.read? (.expression (.path p) scope) state).2

theorem callsAlong_covers (covers : t.Covers s) (closed : s.Closed) (has : s.Has v) (own : σ) (p : Path) :
    (ofStore : Host σ).callsAlong p v (t, own) = (ofStore : Host σ).callsAlong p v (s, own) ∧
      (p.walk? v t).2.Covers (p.walk? v s).2 := by
  induction p generalizing s t v with
  | nil => exact ⟨rfl, covers⟩
  | cons segment path ih =>
    obtain ⟨same, after⟩ := segment.follow_covers covers has
    have leaves := segment.leaves_follow closed v
    unfold callsAlong
    rw [follow_ofStore, inStore, inStore, same, called, called, covers.grows.member_eq has,
      Path.walk_cons, Path.walk_cons]
    cases reached : segment.follow? v s with
    | mk next s' =>
      cases reachedThere : segment.follow? v t with
      | mk next' t' =>
        rw [reached, reachedThere] at same after
        rw [reached] at leaves
        obtain rfl : next' = next := same
        cases next' with
        | none => exact ⟨rfl, after⟩
        | some next =>
          obtain ⟨others, last⟩ := ih after leaves.closed (leaves.has next (List.mem_singleton_self next))
          exact ⟨congrArg _ others, last⟩

theorem calls_covers (covers : t.Covers s) (closed : s.Closed) (within : scope.Within s) (own : σ)
    (p : Path) :
    let a := Accessor.expression (.path p) scope
    (ofStore : Host σ).calls a (t, own) = (ofStore : Host σ).calls a (s, own) ∧
      (a.read? t).2.Covers (a.read? s).2 := by
  cases p with
  | nil => exact ⟨rfl, covers⟩
  | cons first others =>
    have root := Scope.root_extends covers.grows within first.name
    have has := within.has_root s first.name
    obtain ⟨same, after⟩ := callsAlong_covers covers closed has own (first :: others)
    refine ⟨?_, ?_⟩
    · rw [calls_path, calls_path, root]
      exact same
    · rw [Accessor.read?, Expression.evaluate_path, Expression.evaluate_path, root]
      exact after

/-- The functions of a store are called alike with and without the containers of literals. -/
theorem InTurn.calls_eq {state last : Store × σ} {paths : List Path} {calls : List FunctionRef}
    (inTurn : (ofStore : Host σ).InTurn scope state paths calls last) (covers : state.1.Covers s)
    (closed : s.Closed) (within : scope.Within s) :
    calls = (ofStore : Host σ).callsInTurn scope paths (s, state.2) := by
  induction inTurn generalizing s with
  | done => rfl
  | making gains _ ih => exact ih (covers.gain gains) closed within
  | @reading p state paths calls last _ ih =>
    obtain ⟨t, own⟩ := state
    obtain ⟨same, after⟩ := calls_covers covers closed within own p
    have leaves := Accessor.leaves_read closed (a := .expression (.path p) scope) within
    rw [read_ofStore] at ih
    rw [callsInTurn, read_ofStore, same, ih after leaves.closed (within.retain leaves.retains)]
    rfl

theorem calls_expression (host : Host σ) (scope : Scope) (e : Expression) (state : Store × σ) :
    host.InTurn scope state e.paths (host.calls (.expression e scope) state)
      (host.read? (.expression e scope) state).2 := by
  obtain ⟨made, notes, inTurn⟩ := evaluatesInTurn host scope e
  have same : host.calls (.expression e scope) state = made state := notes.noted_eq state
  rw [same]
  exact inTurn state

theorem notes_read (host : Host σ) (a : Accessor) :
    Notes (host.read? a) (host.noting.read? a) (host.calls a) := by
  cases a with
  | constant value => exact (notes_pure (some value)).toNoted
  | pluck path root => exact (notes_walk host path root).toNoted
  | expression e scope =>
    obtain ⟨made, notes, _⟩ := evaluatesInTurn host scope e
    exact notes.toNoted

theorem calls_of_callFree (host : Host σ) {e : Expression} (callFree : e.CallFree)
    (state : Store × σ) : host.calls (.expression e scope) state = [] := by
  rw [calls, noted, read?, evaluate_of_callFree callFree]
  rfl

def evaluate (host : Host σ) (set : BindingSet) :
    StateM (Store × σ) (List (String × Option Value)) :=
  set.accessors.entries.mapM fun entry => do return (entry.1, ← host.read? entry.2)

def readName? (host : Host σ) (set : BindingSet) (name : String) : StateM (Store × σ) (Option Value) :=
  match set.get? name with
  | some a => host.read? a
  | none => return none

theorem evaluate_ofStore (set : BindingSet) :
    (ofStore : Host σ).evaluate set = inStore set.evaluate := by
  rw [evaluate, BindingSet.evaluate]
  induction set.accessors.entries with
  | nil => rfl
  | cons entry entries ih =>
    rw [List.mapM_cons, List.mapM_cons, ih, read_ofStore]
    rfl

theorem evaluate_eq_names (host : Host σ) (set : BindingSet) :
    host.evaluate set = set.names.mapM fun name => do return (name, ← host.readName? set name) := by
  rw [evaluate, BindingSet.names, Fields.names, List.mapM_map]
  refine List.mapM_congr_left fun entry member => ?_
  have found : set.get? entry.1 = some entry.2 :=
    congrArg (Option.map Prod.snd) ((Keyed.find_key_iff set.accessors.distinct).2 member)
  rw [Function.comp, readName?, found]

theorem turns_bindings (host : Host σ) (scope : Scope) {bindings : List Binding}
    (distinct : (bindings.map Binding.name).Nodup) :
    host.Turns scope (bindings.flatMap fun b => b.value.paths)
      (host.evaluate (.ofBindings bindings scope)) (host.noting.evaluate (.ofBindings bindings scope)) := by
  rw [evaluate, evaluate, BindingSet.entries_ofBindings distinct]
  clear distinct
  induction bindings with
  | nil => exact turns_pure []
  | cons b bindings ih =>
    rw [List.map_cons, List.mapM_cons, List.mapM_cons]
    have row := (evaluatesInTurn host scope b.value).map (b.name, ·)
    exact row.bind fun outcome => ih.map (outcome :: ·)

theorem calls_set (host : Host σ) (scope : Scope) {bindings : List Binding}
    (distinct : (bindings.map Binding.name).Nodup) (state : Store × σ) :
    host.InTurn scope state (bindings.flatMap fun b => b.value.paths)
      (noted (host.noting.evaluate (.ofBindings bindings scope)) state)
      (host.evaluate (.ofBindings bindings scope) state).2 := by
  obtain ⟨made, notes, inTurn⟩ := turns_bindings host scope distinct
  rw [notes.noted_eq]
  exact inTurn state

end Host

theorem Options.exists_written {options : Options} {text : String} {bindings : List Binding}
    (accepted : options.bindings text = .ok bindings) :
    ∃ tokens written, Token.scan text = .ok tokens ∧ Grammar.IsBindings tokens written ∧
      (options.rules.duplicates = .lastWins → bindings = Keyed.ofList Binding.name written) := by
  obtain ⟨tokens, scanned, parsed⟩ := exists_tokens_of_readBindings accepted
  obtain ⟨written, isBindings, _, added⟩ := Parser.parse_eq_ok_iff.1 parsed
  refine ⟨tokens, written, scanned, isBindings, fun lax => ?_⟩
  rw [lax, Parser.foldlM_add_lastWins] at added
  exact (Except.ok.inj added).symm

namespace Host

variable {σ : Type}

/-- Functions are called path by path as they are written, each path as if it were alone. -/
theorem calls_in_turn (host : Host σ) (scope : Scope) :
    (∀ a, Notes (host.read? a) (host.noting.read? a) (host.calls a)) ∧
    (∀ p v state, host.calls (.pluck p v) state = host.callsAlong p v state) ∧
    (∀ first others state, host.calls (.expression (.path (first :: others)) scope) state =
      host.callsAlong (first :: others) (scope.root state.1 first.name) state) ∧
    (∀ e state, host.InTurn scope state e.paths (host.calls (.expression e scope) state)
      (host.read? (.expression e scope) state).2) ∧
    (∀ e, e.CallFree → ∀ state, host.calls (.expression e scope) state = []) ∧
    (∀ e s own, s.Closed → scope.Within s → (ofStore : Host σ).calls (.expression e scope) (s, own) =
      (ofStore : Host σ).callsInTurn scope e.paths (s, own)) ∧
    ∀ (options : Options) text bindings, options.bindings text = .ok bindings →
      ∃ set tokens written, options.bind text scope = .ok set ∧
        set.names = bindings.map Binding.name ∧ Token.scan text = .ok tokens ∧
        Grammar.IsBindings tokens written ∧
        (options.rules.duplicates = .lastWins → bindings = Keyed.ofList Binding.name written) ∧
        (host.evaluate set = set.names.mapM fun name => do return (name, ← host.readName? set name)) ∧
        (ofStore : Host σ).evaluate set = inStore set.evaluate ∧
        (∀ state, host.InTurn scope state (bindings.flatMap fun b => b.value.paths)
          (noted (host.noting.evaluate set) state) (host.evaluate set state).2) ∧
        ∀ s own, s.Closed → scope.Within s →
          noted ((ofStore : Host σ).noting.evaluate set) (s, own) =
            (ofStore : Host σ).callsInTurn scope (bindings.flatMap fun b => b.value.paths) (s, own) := by
  refine ⟨notes_read host, calls_pluck host, calls_path host scope, calls_expression host scope,
    fun e callFree => calls_of_callFree host callFree, ?_, ?_⟩
  · intro e s own closed within
    exact (calls_expression ofStore scope e (s, own)).calls_eq (.refl s) closed within
  · intro options text bindings accepted
    obtain ⟨tokens, written, scanned, isBindings, merged⟩ := options.exists_written accepted
    have distinct := nodup_of_readBindings accepted
    refine ⟨_, tokens, written, options.bind_of_bindings accepted scope,
      BindingSet.names_ofBindings distinct scope, scanned, isBindings, merged,
      evaluate_eq_names host _, evaluate_ofStore _, calls_set host scope distinct, ?_⟩
    intro s own closed within
    exact (calls_set ofStore scope distinct (s, own)).calls_eq (.refl s) closed within

theorem replaced_calls_nothing :
    let holder := (newObject (.ofList [("f", .function ⟨0⟩)]) empty).2
    let both := (newObject (.ofList [("g", .function ⟨1⟩)]) holder).2
    let setter : HostFunction := .reply .null none (some (.object ⟨0⟩, "x", .object ⟨1⟩))
    let s := (newFunction (.counter 7) (newFunction setter both).2).2
    let scope : Scope := ⟨.object ⟨0⟩, none⟩
    let host : Host Unit := ofStore
    let f : Path := [⟨"f", true⟩]
    let g : Path := [⟨"x", false⟩, ⟨"g", true⟩]
    let e : Expression := .object [("k", .path f), ("k", .path g)]
    s.Closed ∧ scope.Within s ∧ (Expression.path [⟨"f", false⟩]).CallFree ∧
      host.calls (.expression (.path [⟨"f", false⟩]) scope) (s, ()) = [] ∧
      host.calls (.expression e scope) (s, ()) = host.callsInTurn scope e.paths (s, ()) ∧
      host.callsInTurn scope e.paths (s, ()) = [⟨0⟩, ⟨1⟩] ∧
      host.callsInTurn scope e.paths.reverse (s, ()) = [⟨0⟩] ∧
      ∃ set, Options.default.bind "a: f(),b: [f(),x.g()],a: x.g()" scope = .ok set ∧
        set.names = ["a", "b"] ∧
        noted (host.noting.evaluate set) (s, ()) = host.callsInTurn scope [g, f, g] (s, ()) ∧
        host.callsInTurn scope [g, f, g] (s, ()) = [⟨0⟩, ⟨1⟩] := by
  intro holder both setter s scope host f g e
  let text := "a: f(),b: [f(),x.g()],a: x.g()"
  have scanned : Token.scan text = .ok [⟨.identifier, "a", ⟨1, 1, 0⟩⟩, ⟨.colon, ":", ⟨1, 2, 1⟩⟩,
      ⟨.identifier, "f", ⟨1, 4, 3⟩⟩, ⟨.leftParen, "(", ⟨1, 5, 4⟩⟩, ⟨.rightParen, ")", ⟨1, 6, 5⟩⟩,
      ⟨.comma, ",", ⟨1, 7, 6⟩⟩, ⟨.identifier, "b", ⟨1, 8, 7⟩⟩, ⟨.colon, ":", ⟨1, 9, 8⟩⟩,
      ⟨.leftBracket, "[", ⟨1, 11, 10⟩⟩, ⟨.identifier, "f", ⟨1, 12, 11⟩⟩,
      ⟨.leftParen, "(", ⟨1, 13, 12⟩⟩, ⟨.rightParen, ")", ⟨1, 14, 13⟩⟩, ⟨.comma, ",", ⟨1, 15, 14⟩⟩,
      ⟨.identifier, "x", ⟨1, 16, 15⟩⟩, ⟨.dot, ".", ⟨1, 17, 16⟩⟩, ⟨.identifier, "g", ⟨1, 18, 17⟩⟩,
      ⟨.leftParen, "(", ⟨1, 19, 18⟩⟩, ⟨.rightParen, ")", ⟨1, 20, 19⟩⟩,
      ⟨.rightBracket, "]", ⟨1, 21, 20⟩⟩, ⟨.comma, ",", ⟨1, 22, 21⟩⟩, ⟨.identifier, "a", ⟨1, 23, 22⟩⟩,
      ⟨.colon, ":", ⟨1, 24, 23⟩⟩, ⟨.identifier, "x", ⟨1, 26, 25⟩⟩, ⟨.dot, ".", ⟨1, 27, 26⟩⟩,
      ⟨.identifier, "g", ⟨1, 28, 27⟩⟩, ⟨.leftParen, "(", ⟨1, 29, 28⟩⟩,
      ⟨.rightParen, ")", ⟨1, 30, 29⟩⟩] := by
    decide +kernel
  have accepted : Options.default.bindings text =
      .ok [⟨"a", .path g, ⟨1, 23, 22⟩⟩, ⟨"b", .array [.path f, .path g], ⟨1, 8, 7⟩⟩] :=
    readBindings_of_scan _ scanned
  have paths : e.paths = [f, g] := rfl
  have hasAll : both.HasAllOf setter := by
    refine ⟨trivial, nofun, ?_⟩
    rintro _ _ _ ⟨⟩
    decide
  have closedBoth : both.Closed := (closed_empty.newObject (by decide)).newObject (by decide)
  have closed : s.Closed := (closedBoth.newFunction hasAll).newFunction trivial
  have within : scope.Within s := ⟨by decide, fun _ none => nomatch none⟩
  have callFree : (Expression.path [⟨"f", false⟩]).CallFree := by
    refine Expression.forall_paths_path.2 ?_
    unfold Path.CallFree
    decide
  obtain ⟨_, _, _, _, uncalled, inTurn, bound⟩ := calls_in_turn host scope
  obtain ⟨set, _, _, isSet, named, _, _, _, _, _, _, setInTurn⟩ := bound _ _ _ accepted
  refine ⟨closed, within, callFree, uncalled _ callFree (s, ()), inTurn e s () closed within, ?_, ?_,
    set, isSet, named, setInTurn s () closed within, ?_⟩
  · rw [paths]
    decide +kernel
  · rw [paths]
    decide +kernel
  · decide +kernel

end Host

end Bindlang
