import Bindlang.Proofs.Store.Acyclicity
import Bindlang.Proofs.Store.TreeEquality

namespace Bindlang

open Relation Store

def Value.isNaN : Value → Bool
  | float x => x.isNaN
  | _ => false

namespace Store

variable {s : Store} {v w : Value} {t : Tree} {a b : ObjectRef}

theorem forall_reached_iff {Good : Value → Prop} :
    (∀ w, s.Reaches v w → Good w) ↔ Good v ∧ ∀ m ∈ s.held v, ∀ w, s.Reaches m w → Good w := by
  constructor
  · exact fun all => ⟨all v .refl, fun m holds w reaches => all w (.head holds reaches)⟩
  · rintro ⟨here, each⟩ w reaches
    rcases ReflTransGen.cases_head reaches with rfl | ⟨m, holds, reaches⟩
    · exact here
    · exact each m holds w reaches

theorem matches_self_iff_of_scalar (matching : t.Matches t) (isNumber : v.isNaN = false)
    (scalar : s.held v = []) : t.Matches t ↔ ∀ w, s.Reaches v w → w.isNaN = false := by
  refine iff_of_true matching (forall_reached_iff.2 ⟨isNumber, ?_⟩)
  rw [scalar]
  exact List.forall_mem_nil _

theorem Unfolds.matches_self_iff (unfolds : s.Unfolds v t) :
    t.Matches t ↔ ∀ w, s.Reaches v w → w.isNaN = false := by
  induction unfolds with
  | undefined => exact matches_self_iff_of_scalar .undefined rfl rfl
  | null => exact matches_self_iff_of_scalar .null rfl rfl
  | boolean b => exact matches_self_iff_of_scalar (.boolean b) rfl rfl
  | integer n => exact matches_self_iff_of_scalar (.integer n) rfl rfl
  | string t => exact matches_self_iff_of_scalar (.string t) rfl rfl
  | function ref => exact matches_self_iff_of_scalar (.function ref) rfl rfl
  | float x =>
    constructor
    · intro matching
      cases matching with
      | float same => exact forall_reached_iff.2 ⟨Binary64.beq_self_iff.1 same, List.forall_mem_nil _⟩
    · exact fun each => .float (Binary64.beq_self_iff.2 (each (.float x) .refl))
  | array here each ih =>
    rw [forall_reached_iff, held_array here, Tree.matches_self_array_iff, List.forall_mem_map,
      List.forall_mem_map, forall₂_congr ih]
    exact (and_iff_right rfl).symm
  | @object ref fields members here entries each ih =>
    have distinct : ((members.map fun m => (m.1, m.2.2)).map Prod.fst).Nodup := by
      have keys := fields.distinct
      rw [entries, List.map_map] at keys
      rwa [List.map_map]
    rw [forall_reached_iff, held_object here, entries, List.map_map, Tree.matches_self_object_iff distinct,
      List.forall_mem_map, List.forall_mem_map, forall₂_congr ih]
    exact (and_iff_right rfl).symm

theorem Unfolds.object_eq (unfolds : s.Unfolds (.object a) t) :
    t = .object ((s.fields a).entries.map fun field => (field.1, s.tree field.2)) := by
  cases unfolds with
  | object here entries each =>
    rw [Store.fields, here, Option.getD_some, entries, List.map_map]
    exact congrArg Tree.object (List.map_congr_left fun m member =>
      congrArg (m.1, ·) (each m member).tree_eq.symm)

theorem Acyclic.of_member (acyclic : s.Acyclic v) {key : String} {m : Value}
    (found : s.member? v key = some m) : s.Acyclic m := by
  have members := acyclic.unfolds.member key
  rw [found] at members
  generalize (s.tree v).member? key = behind at members
  cases members with
  | some unfolds => exact ⟨_, unfolds⟩

def Matches (s : Store) (v w : Value) : Prop :=
  ∃ t u, s.Unfolds v t ∧ s.Unfolds w u ∧ t.Matches u

theorem Acyclic.equal_iff (acyclic : s.Acyclic v) (acyclic' : s.Acyclic w) :
    s.equal v w = true ↔ (s.tree v).Matches (s.tree w) := by
  have unfolds := acyclic.unfolds
  have unfolds' := acyclic'.unfolds
  rw [unfolds.equal_eq unfolds']
  exact Tree.equal_iff unfolds.merged_eq unfolds'.merged_eq

theorem Matches.equal (matching : s.Matches v w) : s.equal v w = true := by
  obtain ⟨t, u, unfolds, unfolds', matching⟩ := matching
  rw [unfolds.equal_eq unfolds']
  exact (Tree.equal_iff unfolds.merged_eq unfolds'.merged_eq).2 matching

theorem Acyclic.matching (acyclic : s.Acyclic v) (acyclic' : s.Acyclic w) (same : s.equal v w = true) :
    s.Matches v w :=
  ⟨_, _, acyclic.unfolds, acyclic'.unfolds, (acyclic.equal_iff acyclic').1 same⟩

theorem Matches.member (matching : s.Matches v w) (key : String) :
    Option.Rel s.Matches (s.member? v key) (s.member? w key) := by
  obtain ⟨t, u, unfolds, unfolds', matching⟩ := matching
  have left := unfolds.member key
  have right := unfolds'.member key
  have both := matching.member key
  refine Option.rel_of_isSome_eq ?_ fun m m' found found' => ?_
  · rw [left.isSome_eq, right.isSome_eq, both.isSome_eq]
  · rw [found] at left
    rw [found'] at right
    generalize t.member? key = behind, u.member? key = behind' at left right both
    cases left with
    | some unfolds =>
      cases right with
      | some unfolds' =>
        cases both with
        | some matching => exact ⟨_, _, unfolds, unfolds', matching⟩

theorem Matches.of_perm (same : (s.fields a).entries.Perm (s.fields b).entries)
    (acyclic : s.Acyclic (.object b)) (matching : s.Matches (.object a) w) :
    s.Matches (.object b) w := by
  obtain ⟨t, u, unfolds, unfolds', matching⟩ := matching
  rw [unfolds.object_eq] at matching
  refine ⟨_, u, acyclic.unfolds, unfolds', ?_⟩
  rw [acyclic.unfolds.object_eq]
  exact matching.of_perm (same.map _)

theorem equal_object_iff (acyclic : s.Acyclic (.object a)) (acyclic' : s.Acyclic (.object b)) :
    s.equal (.object a) (.object b) = true ↔
      ∀ key, Option.Rel (fun v w => s.equal v w = true)
        (s.member? (.object a) key) (s.member? (.object b) key) := by
  constructor
  · exact fun same key =>
      ((acyclic.matching acyclic' same).member key).mono fun _ _ => Matches.equal
  · intro each
    rw [acyclic.equal_iff acyclic']
    have left := fun key => Unfolds.map_tree (acyclic.unfolds.member key)
    have right := fun key => Unfolds.map_tree (acyclic'.unfolds.member key)
    rw [acyclic.unfolds.object_eq] at left ⊢
    rw [acyclic'.unfolds.object_eq] at right ⊢
    have names : ∀ c, (((s.fields c).entries.map fun field => (field.1, s.tree field.2)).map
        Prod.fst).Nodup := by
      intro c
      rw [List.map_map]
      exact (s.fields c).distinct
    refine (Tree.matches_object_iff (names a) (names b)).2 fun key => ?_
    rw [← left, ← right]
    have members := each key
    refine Option.rel_of_isSome_eq ?_ fun t u here there => ?_
    · rw [Option.isSome_map, Option.isSome_map, members.isSome_eq]
    · obtain ⟨v, found, rfl⟩ := Option.map_eq_some_iff.1 here
      obtain ⟨w, found', rfl⟩ := Option.map_eq_some_iff.1 there
      rw [found, found'] at members
      cases members with
      | some same => exact ((acyclic.of_member found).equal_iff (acyclic'.of_member found')).1 same

end Store

theorem Path.find_of_matches {s : Store} {v w : Value} (matching : s.Matches v w) (p : Path) :
    Option.Rel s.Matches (p.find? s v) (p.find? s w) := by
  induction p generalizing v w with
  | nil => exact .some matching
  | cons segment path ih =>
    have members := matching.member segment.name
    rw [find?, find?]
    generalize s.member? v segment.name = found, s.member? w segment.name = found' at members ⊢
    cases members with
    | none => exact .none
    | some matching => exact ih matching

/-- Equality is symmetric and transitive, reflexive without non-numbers, and kept by look-ups. -/
theorem Store.equal_is_congruence (s : Store) :
    (s.Closed → ∀ v, s.Acyclic v ↔ s.Has v ∧ ∀ w, s.Reaches v w → ¬TransGen s.Holds w w) ∧
    (∀ v w, s.Acyclic v → s.Acyclic w → s.equal v w = s.equal w v) ∧
    (∀ u v w, s.Acyclic u → s.Acyclic v → s.Acyclic w →
      s.equal u v = true → s.equal v w = true → s.equal u w = true) ∧
    (∀ v, s.Acyclic v → (s.equal v v = true ↔ ∀ w, s.Reaches v w → w.isNaN = false)) ∧
    (∀ a b, s.Acyclic (.object a) → s.Acyclic (.object b) →
      (s.equal (.object a) (.object b) = true ↔
        ∀ key, Option.Rel (fun v w => s.equal v w = true)
          (s.member? (.object a) key) (s.member? (.object b) key)) ∧
      ((s.fields a).entries.Perm (s.fields b).entries →
        ∀ w, s.Acyclic w → s.equal (.object a) w = s.equal (.object b) w)) ∧
    ∀ v w, s.Acyclic v → s.Acyclic w → s.equal v w = true →
      (∀ p : Path, p.CallFree →
        (p.walk? v s).2 = s ∧ (p.walk? w s).2 = s ∧
          Option.Rel (fun v w => s.equal v w = true) (p.walk? v s).1 (p.walk? w s).1) ∧
      ∀ key, s.hasMember v key = s.hasMember w key := by
  refine ⟨fun closed v => closed.acyclic_iff, ?_, ?_, ?_, ?_, ?_⟩
  · intro v w acyclic acyclic'
    rw [Bool.eq_iff_iff, acyclic.equal_iff acyclic', acyclic'.equal_iff acyclic]
    exact ⟨.symm, .symm⟩
  · intro u v w first second third same same'
    rw [first.equal_iff second] at same
    rw [second.equal_iff third] at same'
    rw [first.equal_iff third]
    exact same.trans same'
  · intro v acyclic
    rw [acyclic.equal_iff acyclic]
    exact acyclic.unfolds.matches_self_iff
  · intro a b acyclic acyclic'
    refine ⟨equal_object_iff acyclic acyclic', fun same w other => ?_⟩
    rw [Bool.eq_iff_iff]
    constructor
    · exact fun same' => ((acyclic.matching other same').of_perm same acyclic').equal
    · exact fun same' => ((acyclic'.matching other same').of_perm same.symm acyclic).equal
  · intro v w acyclic acyclic' same
    have matching := acyclic.matching acyclic' same
    constructor
    · intro p callFree
      rw [Path.walk_of_callFree callFree, Path.walk_of_callFree callFree]
      exact ⟨rfl, rfl, (Path.find_of_matches matching p).mono fun _ _ => Matches.equal⟩
    · intro key
      rw [hasMember_eq, hasMember_eq]
      exact (matching.member key).isSome_eq

theorem Store.reordered_object_leads_alike :
    let zeros := (newArray [.float (-0.0)] (newArray [.float 0.0] empty).2).2
    let arrays := (newArray [.float (0.0 / 0.0)] zeros).2
    let objects := (newObject (.ofList [("a", .array ⟨1⟩), ("z", .integer 1)])
      (newObject (.ofList [("z", .integer 1), ("a", .array ⟨0⟩)]) arrays).2).2
    let s := (newObject (.ofList [("a", .array ⟨0⟩), ("z", .integer 1)]) objects).2
    let path : Path := [⟨"a", false⟩, ⟨"0", false⟩]
    s.Closed ∧ s.Acyclic (.object ⟨0⟩) ∧ s.Acyclic (.object ⟨1⟩) ∧ s.Acyclic (.object ⟨2⟩) ∧
      s.Acyclic (.array ⟨2⟩) ∧ ¬TransGen s.Holds (.object ⟨0⟩) (.object ⟨0⟩) ∧
      s.equal (.object ⟨0⟩) (.object ⟨1⟩) = true ∧ s.equal (.object ⟨1⟩) (.object ⟨0⟩) = true ∧
      s.equal (.object ⟨0⟩) (.object ⟨2⟩) = true ∧ s.equal (.object ⟨1⟩) (.object ⟨2⟩) = true ∧
      s.equal (.array ⟨2⟩) (.array ⟨2⟩) = false ∧
      path.CallFree ∧ (path.walk? (.object ⟨0⟩) s).1 = some (.float 0.0) ∧
      Option.Rel (fun v w => s.equal v w = true)
        (path.walk? (.object ⟨0⟩) s).1 (path.walk? (.object ⟨1⟩) s).1 ∧
      ∀ key, s.hasMember (.object ⟨0⟩) key = s.hasMember (.object ⟨1⟩) key := by
  intro zeros arrays objects s path
  have closedZeros : zeros.Closed := (closed_empty.newArray (by decide)).newArray (by decide)
  have closedArrays : arrays.Closed := closedZeros.newArray (by decide)
  have closedObjects : objects.Closed := (closedArrays.newObject (by decide)).newObject (by decide)
  have closed : s.Closed := closedObjects.newObject (by decide)
  have array0 : s.Acyclic (.array ⟨0⟩) :=
    acyclic_of_held (by decide) (List.forall_mem_singleton.2 ⟨_, .float _⟩)
  have array1 : s.Acyclic (.array ⟨1⟩) :=
    acyclic_of_held (by decide) (List.forall_mem_singleton.2 ⟨_, .float _⟩)
  have array2 : s.Acyclic (.array ⟨2⟩) :=
    acyclic_of_held (by decide) (List.forall_mem_singleton.2 ⟨_, .float _⟩)
  have object0 : s.Acyclic (.object ⟨0⟩) :=
    acyclic_of_held (by decide) (List.forall_mem_cons.2
      ⟨⟨_, .integer _⟩, List.forall_mem_singleton.2 array0⟩)
  have object1 : s.Acyclic (.object ⟨1⟩) :=
    acyclic_of_held (by decide) (List.forall_mem_cons.2
      ⟨array1, List.forall_mem_singleton.2 ⟨_, .integer _⟩⟩)
  have object2 : s.Acyclic (.object ⟨2⟩) :=
    acyclic_of_held (by decide) (List.forall_mem_cons.2
      ⟨array0, List.forall_mem_singleton.2 ⟨_, .integer _⟩⟩)
  have isNaN : (0.0 / 0.0 : Float).isNaN = true := by decide +kernel
  have same : s.equal (.object ⟨0⟩) (.object ⟨1⟩) = true := by decide +kernel
  have uncalled : path.CallFree := by
    unfold Path.CallFree
    decide
  obtain ⟨acyclic, symm, trans, self, ofObjects, alike⟩ := equal_is_congruence s
  have back : s.equal (.object ⟨1⟩) (.object ⟨0⟩) = true := (symm _ _ object0 object1).symm.trans same
  have moved : s.equal (.object ⟨2⟩) (.object ⟨1⟩) = true :=
    ((ofObjects ⟨0⟩ ⟨2⟩ object0 object2).2 (.swap _ _ _) _ object1).symm.trans same
  have back' : s.equal (.object ⟨1⟩) (.object ⟨2⟩) = true := (symm _ _ object1 object2).trans moved
  have notSelf : ¬s.equal (.array ⟨2⟩) (.array ⟨2⟩) = true := by
    intro same
    have isNumber := (self _ array2).1 same (.float (0.0 / 0.0)) (.single (List.mem_singleton_self _))
    exact Bool.noConfusion (isNaN.symm.trans isNumber)
  obtain ⟨along, members⟩ := alike _ _ object0 object1 same
  exact ⟨closed, object0, object1, object2, array2, ((acyclic closed _).1 object0).2 _ .refl, same, back,
    trans _ _ _ object0 object1 object2 same back', back', Bool.not_eq_true _ ▸ notSelf, uncalled, rfl,
    (along path uncalled).2.2, members⟩

end Bindlang
