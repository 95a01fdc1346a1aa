import Bindlang.Proofs.Accessor.CallOrder
import Bindlang.Proofs.Accessor.Shadowing
import Bindlang.Proofs.Path.Plucking

namespace Bindlang

open Store

theorem Text.readNatural_of_isIdentifier {name : String} (isIdentifier : IsIdentifier name) :
    readNatural? name.toList = none := by
  have begins := isIdentifier.begins
  refine Option.eq_none_iff_forall_not_mem.2 fun i read => ?_
  obtain ⟨isIndex, _⟩ := NumberText.readNatural_eq_some_iff.1 read
  generalize name.toList = chars at begins isIndex
  cases isIndex with
  | unsigned digits =>
    obtain ⟨c, rest, rfl, isDigit⟩ := digits.exists_cons
    exact Bool.noConfusion (isDigit.symm.trans (isDigit_of_isIdentifierStart begins))
  | signed =>
    rw [List.head?_cons, Option.any_some] at begins
    exact absurd begins (by decide +kernel)

theorem Store.member_of_isIdentifier {v : Value} {name : String}
    (noObject : ∀ ref, v ≠ .object ref) (isIdentifier : IsIdentifier name) (s : Store) :
    s.member? v name = none := by
  cases v with
  | object ref => exact absurd rfl (noObject ref)
  | array ref => rw [member?, Text.readNatural_of_isIdentifier isIdentifier, Option.bind_none]
  | _ => rfl

variable {e : Expression} {scope scope' : Scope} {p : Path}

theorem Expression.WellFormed.paths {Fits : Float → Prop} (wellFormed : e.WellFormed Fits) :
    ∀ p ∈ e.paths, p.WellFormed := by
  induction wellFormed with
  | @literal l => exact forall_paths_literal l
  | array _ ih => exact forall_paths_array.2 ih
  | object _ _ ih => exact forall_paths_object.2 ih
  | path wellFormed => exact forall_paths_path.2 wellFormed

/-- In every store the first name of the path is looked up in the same value. -/
def Scope.SameRoot (scope scope' : Scope) (p : Path) : Prop :=
  ∀ first ∈ p.head?, ∀ s, scope.root s first.name = scope'.root s first.name

theorem Scope.sameRoot_of_wellFormed {extra : Value} (noObject : ∀ ref, extra ≠ .object ref)
    (wellFormed : p.WellFormed) (primary : Value) :
    Scope.SameRoot ⟨primary, some extra⟩ ⟨primary, none⟩ p := by
  cases p with
  | nil => cases wellFormed
  | cons first members =>
    rintro _ ⟨⟩ s
    rw [root_some, member_of_isIdentifier noObject wellFormed.1]
    rfl

namespace Host

variable {σ : Type} {host : Host σ}

def SameInScopes (host : Host σ) (scope scope' : Scope) (e : Expression) : Prop :=
  host.evaluate? scope e = host.evaluate? scope' e

theorem evaluateItems_congr {items : List Expression}
    (each : ∀ item ∈ items, host.SameInScopes scope scope' item) :
    host.evaluateItems scope items = host.evaluateItems scope' items := by
  induction items with
  | nil => rfl
  | cons item items ih =>
    obtain ⟨first, others⟩ := List.forall_mem_cons.1 each
    rw [evaluateItems, evaluateItems, first, ih others]

theorem evaluateEntries_congr {entries : List (String × Expression)}
    (each : ∀ entry ∈ entries, host.SameInScopes scope scope' entry.2) :
    host.evaluateEntries scope entries = host.evaluateEntries scope' entries := by
  induction entries with
  | nil => rfl
  | cons entry entries ih =>
    obtain ⟨first, others⟩ := List.forall_mem_cons.1 each
    rw [evaluateEntries, evaluateEntries, first, ih others]

theorem sameInScopes (host : Host σ) (same : ∀ p ∈ e.paths, scope.SameRoot scope' p) :
    host.SameInScopes scope scope' e := by
  induction e using Expression.inductionOn with
  | literal => rfl
  | array items ih =>
    have each := Expression.forall_paths_array.1 same
    rw [SameInScopes, evaluate?, evaluate?,
      evaluateItems_congr fun item member => ih item member (each item member)]
  | object entries ih =>
    have each := Expression.forall_paths_object.1 same
    rw [SameInScopes, evaluate?, evaluate?,
      evaluateEntries_congr fun entry member => ih entry member (each entry member)]
  | path p =>
    cases p with
    | nil => rfl
    | cons first others =>
      have root := Expression.forall_paths_path.1 same first rfl
      rw [SameInScopes, evaluate?, evaluate?]
      funext state
      rw [root state.1]

end Host

/-- The same names, under which accessors find the same in every state of every host. -/
structure BindingSet.ReadsLike (set other : BindingSet) : Prop where
  names : set.names = other.names
  each : ∀ name, Option.Rel Accessor.ReadsLike (set.get? name) (other.get? name)

namespace BindingSet

variable {set other : BindingSet}

theorem ReadsLike.readName_eq {σ : Type} (same : set.ReadsLike other) (host : Host σ) (name : String) :
    host.readName? set name = host.readName? other name := by
  have found := same.each name
  unfold Host.readName?
  generalize set.get? name = a, other.get? name = b at found
  cases found with
  | none => rfl
  | some alike => exact alike σ host

theorem ReadsLike.evaluate_eq (same : set.ReadsLike other) : set.evaluate = other.evaluate := by
  have rows : (Host.ofStore : Host Unit).evaluate set = Host.ofStore.evaluate other := by
    rw [Host.evaluate_eq_names, Host.evaluate_eq_names, same.names,
      funext (same.readName_eq Host.ofStore)]
  rw [Host.evaluate_ofStore, Host.evaluate_ofStore] at rows
  exact Host.inStore_injective rows

theorem ReadsLike.reads_eq (same : set.ReadsLike other) (name : String) :
    Option.Rel (fun a b => a.read? = b.read?) (set.get? name) (other.get? name) := by
  have found := same.each name
  generalize set.get? name = a, other.get? name = b at found ⊢
  cases found with
  | none => exact .none
  | some alike => exact .some alike.read_eq

theorem readsLike_ofBindings {bindings : List Binding} (distinct : (bindings.map Binding.name).Nodup)
    (same : ∀ b ∈ bindings,
      (Accessor.expression b.value scope).ReadsLike (.expression b.value scope')) :
    (ofBindings bindings scope).ReadsLike (ofBindings bindings scope') where
  names := by rw [names_ofBindings distinct, names_ofBindings distinct]
  each := by
    intro name
    rw [get?, get?, Fields.find?, Fields.find?, entries_ofBindings distinct, entries_ofBindings distinct,
      Keyed.find?, Keyed.find?, List.find?_map, List.find?_map]
    change Option.Rel _ (Option.map _ (Option.map _ (bindings.find? fun b => b.name = name)))
      (Option.map _ (Option.map _ (bindings.find? fun b => b.name = name)))
    cases found : bindings.find? fun b => b.name = name with
    | none => exact .none
    | some b => exact .some (same b (List.mem_of_find?_eq_some found))

end BindingSet

/-- An extra value that is no object might as well not be there, whatever is called. -/
theorem Options.bind_of_not_object {options : Options} {text : String} {bindings : List Binding}
    {extra : Value} (accepted : options.bindings text = .ok bindings)
    (noObject : ∀ ref, extra ≠ .object ref) (primary : Value) :
    ∃ set plain, options.bind text ⟨primary, some extra⟩ = .ok set ∧
      options.bind text ⟨primary, none⟩ = .ok plain ∧ set.ReadsLike plain ∧
      (∀ name, Option.Rel (fun a b => a.read? = b.read?) (set.get? name) (plain.get? name)) ∧
      set.evaluate = plain.evaluate := by
  have alike : (BindingSet.ofBindings bindings ⟨primary, some extra⟩).ReadsLike
      (.ofBindings bindings ⟨primary, none⟩) := by
    refine BindingSet.readsLike_ofBindings (nodup_of_readBindings accepted) fun b member σ host => ?_
    have paths := (wellFormed_of_accepted accepted b member).value.paths
    exact host.sameInScopes fun p inside =>
      Scope.sameRoot_of_wellFormed noObject (paths p inside) primary
  exact ⟨_, _, bind_of_bindings accepted _, bind_of_bindings accepted _, alike, alike.reads_eq,
    alike.evaluate_eq⟩

theorem Options.array_member_unseen :
    let s := (newArray [.null] empty).2
    let text := "a: x.0,b: [f()]"
    let bindings : List Binding := [⟨"a", .path [⟨"x", false⟩, ⟨"0", false⟩], ⟨1, 1, 0⟩⟩,
      ⟨"b", .array [.path [⟨"f", true⟩]], ⟨1, 8, 7⟩⟩]
    s.member? (.array ⟨0⟩) "0" = some .null ∧ default.bindings text = .ok bindings ∧
      ∃ set plain, default.bind text ⟨.object ⟨0⟩, some (.array ⟨0⟩)⟩ = .ok set ∧
        default.bind text ⟨.object ⟨0⟩, none⟩ = .ok plain ∧ set.ReadsLike plain ∧
        (∀ name, Option.Rel (fun a b => a.read? = b.read?) (set.get? name) (plain.get? name)) ∧
        set.evaluate = plain.evaluate := by
  intro s text bindings
  have scanned : Token.scan text = .ok [⟨.identifier, "a", ⟨1, 1, 0⟩⟩, ⟨.colon, ":", ⟨1, 2, 1⟩⟩,
      ⟨.identifier, "x", ⟨1, 4, 3⟩⟩, ⟨.dot, ".", ⟨1, 5, 4⟩⟩, ⟨.identifier, "0", ⟨1, 6, 5⟩⟩,
      ⟨.comma, ",", ⟨1, 7, 6⟩⟩, ⟨.identifier, "b", ⟨1, 8, 7⟩⟩, ⟨.colon, ":", ⟨1, 9, 8⟩⟩,
      ⟨.leftBracket, "[", ⟨1, 11, 10⟩⟩, ⟨.identifier, "f", ⟨1, 12, 11⟩⟩,
      ⟨.leftParen, "(", ⟨1, 13, 12⟩⟩, ⟨.rightParen, ")", ⟨1, 14, 13⟩⟩,
      ⟨.rightBracket, "]", ⟨1, 15, 14⟩⟩] := by
    decide +kernel
  have accepted : default.bindings text = .ok bindings := readBindings_of_scan _ scanned
  exact ⟨by decide +kernel, accepted, bind_of_not_object accepted (by nofun) _⟩

end Bindlang
