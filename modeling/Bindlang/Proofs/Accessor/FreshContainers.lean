import Bindlang.Proofs.Accessor.CallFreeReading

namespace Bindlang

open Store

variable {s t u : Store} {scope : Scope} {e : Expression}

namespace Store

/-- All that happens to the store is that it gains containers, none of them twice. -/
structure Gains (s : Store) (containers : List Value) (t : Store) : Prop where
  grows : s.Extends t
  functions : t.functions = s.functions
  distinct : containers.Nodup
  fresh : ∀ c ∈ containers, ¬s.Has c
  there : ∀ c ∈ containers, t.Has c

variable {containers more : List Value} {v w : Value}

theorem Gains.refl (s : Store) : s.Gains [] s :=
  ⟨.refl s, rfl, List.nodup_nil, List.forall_mem_nil _, List.forall_mem_nil _⟩

theorem Gains.trans (first : s.Gains containers t) (second : t.Gains more u) :
    s.Gains (containers ++ more) u where
  grows := first.grows.trans second.grows
  functions := second.functions.trans first.functions
  distinct := by
    refine List.nodup_append.2 ⟨first.distinct, second.distinct, ?_⟩
    rintro c before _ behind rfl
    exact second.fresh c behind (first.there c before)
  fresh := by
    refine List.forall_mem_append.2 ⟨first.fresh, fun c member has => ?_⟩
    exact second.fresh c member (has.retain first.grows.retains)
  there := by
    refine List.forall_mem_append.2 ⟨fun c member => ?_, second.there⟩
    exact (first.there c member).retain second.grows.retains

theorem gains_newArray (s : Store) (items : List Value) :
    s.Gains [(newArray items s).1] (newArray items s).2 where
  grows := extends_newArray s items
  functions := rfl
  distinct := List.nodup_singleton _
  fresh := List.forall_mem_singleton.2 (by simp [newArray, Has])
  there := List.forall_mem_singleton.2 (has_newArray s items)

theorem gains_newObject (s : Store) (fields : Fields Value) :
    s.Gains [(newObject fields s).1] (newObject fields s).2 where
  grows := extends_newObject s fields
  functions := rfl
  distinct := List.nodup_singleton _
  fresh := List.forall_mem_singleton.2 (by simp [newObject, Has])
  there := List.forall_mem_singleton.2 (has_newObject s fields)

theorem Gains.new_since (gains : t.Gains containers u) (grows : s.Extends t) :
    ∀ c ∈ containers, ¬s.Has c :=
  fun c member has => gains.fresh c member (has.retain grows.retains)

/-- One value that `s` has already, or containers that `s` lacks, with members that are alike. -/
inductive Alike (s t u : Store) : Value → Value → Prop
  | same {v : Value} (has : s.Has v) : Alike s t u v v
  | array {ref ref' : ArrayRef} {members : List (Value × Value)}
      (new : ¬s.Has (.array ref)) (new' : ¬s.Has (.array ref'))
      (here : t.arrays[ref.index]? = some (members.map Prod.fst))
      (here' : u.arrays[ref'.index]? = some (members.map Prod.snd))
      (each : ∀ m ∈ members, Alike s t u m.1 m.2) : Alike s t u (.array ref) (.array ref')
  | object {ref ref' : ObjectRef} {fields fields' : Fields Value}
      {members : List (String × Value × Value)}
      (new : ¬s.Has (.object ref)) (new' : ¬s.Has (.object ref'))
      (here : t.objects[ref.index]? = some fields) (here' : u.objects[ref'.index]? = some fields')
      (entries : fields.entries = members.map fun m => (m.1, m.2.1))
      (entries' : fields'.entries = members.map fun m => (m.1, m.2.2))
      (each : ∀ m ∈ members, Alike s t u m.2.1 m.2.2) : Alike s t u (.object ref) (.object ref')

theorem Alike.orUndefined {found found' : Option Value}
    (alike : Option.Rel (s.Alike t u) found found') :
    s.Alike t u (found.getD .undefined) (found'.getD .undefined) := by
  cases alike with
  | some alike => exact alike
  | none => exact .same trivial

end Store

/-- What a part of an expression gave, and the containers that were made for it. -/
structure Part where
  expression : Expression
  outcome : Option Value
  containers : List Value

def Part.value (part : Part) : Value :=
  part.outcome.getD .undefined

/-- Paths lead where they led in `s`, and each literal container holds what its parts gave. -/
inductive Built (scope : Scope) (s t : Store) : Expression → Option Value → List Value → Prop
  | literal (l : Literal) : Built scope s t (.literal l) (some l.value) []
  | path (p : Path) : Built scope s t (.path p) (scope.find? s p) []
  | array {ref : ArrayRef} {parts : List Part}
      (here : t.arrays[ref.index]? = some (parts.map Part.value))
      (each : ∀ part ∈ parts, Built scope s t part.expression part.outcome part.containers) :
      Built scope s t (.array (parts.map Part.expression)) (some (.array ref))
        (parts.flatMap Part.containers ++ [.array ref])
  | object {ref : ObjectRef} {parts : List (String × Part)}
      (here : t.objects[ref.index]? =
        some (.ofList (parts.map fun part => (part.1, part.2.value))))
      (each : ∀ part ∈ parts, Built scope s t part.2.expression part.2.outcome part.2.containers) :
      Built scope s t (.object (parts.map fun part => (part.1, part.2.expression)))
        (some (.object ref)) (parts.flatMap (fun part => part.2.containers) ++ [.object ref])

variable {outcome outcome' : Option Value} {containers containers' : List Value}

theorem Built.extend (built : Built scope s t e outcome containers) (grows : t.Extends u) :
    Built scope s u e outcome containers := by
  induction built with
  | literal l => exact .literal l
  | path p => exact .path p
  | array here _ ih => exact .array (grows.arrays _ _ here) ih
  | object here _ ih => exact .object (grows.objects _ _ here) ih

def Expression.IsContainer : Expression → Prop
  | array _ | object _ => True
  | literal _ | path _ => False

theorem Built.exists_container (built : Built scope s t e outcome containers)
    (container : e.IsContainer) : ∃ v ∈ containers, outcome = some v := by
  cases built with
  | literal | path => cases container
  | array | object => exact ⟨_, List.mem_append_right _ List.mem_cons_self, rfl⟩

namespace Expression

/-- In stores that extend `s`, evaluating does nothing but make the containers of literals. -/
def BuildsAnew (scope : Scope) (s : Store) (e : Expression) : Prop :=
  ∀ t, s.Extends t → ∃ containers,
    Built scope s (e.evaluate? scope t).2 e (e.evaluate? scope t).1 containers ∧
      t.Gains containers (e.evaluate? scope t).2

theorem exists_parts {α : Type} {labelled : List (α × Expression)}
    (each : ∀ part ∈ labelled, BuildsAnew scope s part.2) (grows : s.Extends t) :
    ∃ parts : List (α × Part),
      labelled = parts.map (fun part => (part.1, part.2.expression)) ∧
      (evaluateEach scope labelled t).1 = parts.map (fun part => (part.1, part.2.outcome)) ∧
      (∀ part ∈ parts, Built scope s (evaluateEach scope labelled t).2 part.2.expression
        part.2.outcome part.2.containers) ∧
      t.Gains (parts.flatMap fun part => part.2.containers) (evaluateEach scope labelled t).2 := by
  induction labelled generalizing t with
  | nil => exact ⟨[], rfl, rfl, List.forall_mem_nil _, .refl t⟩
  | cons part labelled ih =>
    obtain ⟨label, e⟩ := part
    obtain ⟨first, others⟩ := List.forall_mem_cons.1 each
    obtain ⟨containers, built, gains⟩ := first t grows
    obtain ⟨parts, expressions, outcomes, builtOthers, gainsMore⟩ :=
      ih others (grows.trans gains.grows)
    let part : Part := ⟨e, (e.evaluate? scope t).1, containers⟩
    refine ⟨(label, part) :: parts, ?_, ?_, ?_, ?_⟩
    · rw [List.map_cons, ← expressions]
    · rw [evaluateEach_cons, List.map_cons, ← outcomes]
    · exact List.forall_mem_cons.2 ⟨built.extend gainsMore.grows, builtOthers⟩
    · exact gains.trans gainsMore

theorem exists_parts_of_items {items : List Expression}
    (each : ∀ item ∈ items, BuildsAnew scope s item) (grows : s.Extends t) :
    ∃ parts : List Part, items = parts.map Part.expression ∧
      (evaluateItems scope items t).1 = parts.map Part.value ∧
      (∀ part ∈ parts, Built scope s (evaluateItems scope items t).2 part.expression part.outcome
        part.containers) ∧
      t.Gains (parts.flatMap Part.containers) (evaluateItems scope items t).2 := by
  obtain ⟨parts, expressions, outcomes, built, gains⟩ := exists_parts (forall_unlabelled each) grows
  rw [evaluateItems_eq]
  refine ⟨parts.map Prod.snd, ?_, ?_, ?_, ?_⟩
  · simpa [unlabelled, Function.comp_def] using congrArg (List.map Prod.snd) expressions
  · simp [outcomes, Function.comp_def, Part.value]
  · exact List.forall_mem_map.2 built
  · simpa [List.flatMap_map] using gains

theorem exists_parts_of_entries {entries : List (String × Expression)}
    (each : ∀ entry ∈ entries, BuildsAnew scope s entry.2) (grows : s.Extends t) :
    ∃ parts : List (String × Part),
      entries = parts.map (fun part => (part.1, part.2.expression)) ∧
      (evaluateEntries scope entries t).1 = parts.map (fun part => (part.1, part.2.value)) ∧
      (∀ part ∈ parts, Built scope s (evaluateEntries scope entries t).2 part.2.expression
        part.2.outcome part.2.containers) ∧
      t.Gains (parts.flatMap fun part => part.2.containers) (evaluateEntries scope entries t).2 := by
  obtain ⟨parts, expressions, outcomes, built, gains⟩ := exists_parts each grows
  rw [evaluateEntries_eq]
  refine ⟨parts, expressions, ?_, built, gains⟩
  simp [outcomes, Part.value]

theorem buildsAnew (closed : s.Closed) (within : scope.Within s) (callFree : e.CallFree) :
    BuildsAnew scope s e := by
  induction e using inductionOn with
  | literal l => exact fun t _ => ⟨[], .literal l, .refl t⟩
  | array items ih =>
    intro t grows
    have each := forall_paths_array.1 callFree
    obtain ⟨parts, rfl, values, built, gains⟩ :=
      exists_parts_of_items (fun item member => ih item member (each item member)) grows
    have gained := gains_newArray (evaluateItems scope (parts.map Part.expression) t).2
      (parts.map Part.value)
    rw [evaluate_array, values]
    refine ⟨_, .array ?_ fun part member => (built part member).extend gained.grows,
      gains.trans gained⟩
    exact Array.getElem?_push_size
  | object entries ih =>
    intro t grows
    have each := forall_paths_object.1 callFree
    obtain ⟨parts, rfl, values, built, gains⟩ :=
      exists_parts_of_entries (fun entry member => ih entry member (each entry member)) grows
    have gained := gains_newObject
      (evaluateEntries scope (parts.map fun part => (part.1, part.2.expression)) t).2
      (.ofList (parts.map fun part => (part.1, part.2.value)))
    rw [evaluate_object, values]
    refine ⟨_, .object ?_ fun part member => (built part member).extend gained.grows,
      gains.trans gained⟩
    exact Array.getElem?_push_size
  | path p =>
    intro t grows
    rw [evaluate_of_callFree (forall_paths_path.1 callFree),
      Scope.find_extends closed grows within]
    exact ⟨[], .path p, .refl t⟩

end Expression

theorem exists_members {parts parts' : List (String × Part)}
    (same : parts.map (fun part => (part.1, part.2.expression)) =
      parts'.map fun part => (part.1, part.2.expression))
    (each : ∀ part ∈ parts, ∀ part' ∈ parts', part.2.expression = part'.2.expression →
      s.Alike t u part.2.value part'.2.value) :
    ∃ members : List (String × Value × Value),
      parts.map (fun part => (part.1, part.2.value)) = members.map (fun m => (m.1, m.2.1)) ∧
      parts'.map (fun part => (part.1, part.2.value)) = members.map (fun m => (m.1, m.2.2)) ∧
      ∀ m ∈ members, s.Alike t u m.2.1 m.2.2 := by
  obtain ⟨pairs, rfl, rfl, agree⟩ := List.exists_pairs_of_map_eq_map same
  refine ⟨pairs.map fun m => (m.1.1, m.1.2.value, m.2.2.value), ?_, ?_, ?_⟩
  · rw [List.map_map, List.map_map]
    rfl
  · rw [List.map_map, List.map_map]
    refine List.map_congr_left fun m member => ?_
    exact congrArg (·, m.2.2.value) (congrArg Prod.fst (agree m member)).symm
  · refine List.forall_mem_map.2 fun m member => ?_
    exact each m.1 (List.mem_map_of_mem member) m.2 (List.mem_map_of_mem member)
      (congrArg Prod.snd (agree m member))

theorem alike_of_built (closed : s.Closed) (within : scope.Within s)
    (built : Built scope s t e outcome containers) (built' : Built scope s u e outcome' containers')
    (new : ∀ c ∈ containers, ¬s.Has c) (new' : ∀ c ∈ containers', ¬s.Has c) :
    Option.Rel (s.Alike t u) outcome outcome' := by
  -- Both are built for one expression, so the second ends in the constructor of the first.
  induction built generalizing outcome' containers' with
  | literal l =>
    cases built' with
    | literal => exact .some (.same (by cases l <;> trivial))
  | path p =>
    cases built' with
    | path =>
      cases found : scope.find? s p with
      | none => exact .none
      | some v => exact .some (.same (scope.has_find closed within found))
  | @array ref parts here _ ih =>
    generalize same : Expression.array _ = e at built'
    cases built' with
    | @array ref' parts' here' each' =>
      obtain ⟨pairs, rfl, rfl, agree⟩ := List.exists_pairs_of_map_eq_map (Expression.array.inj same)
      obtain ⟨newParts, own⟩ := List.forall_mem_append.1 new
      obtain ⟨newParts', own'⟩ := List.forall_mem_append.1 new'
      let members := pairs.map fun m => (m.1.value, m.2.value)
      have items : t.arrays[ref.index]? = some (members.map Prod.fst) := by
        simpa [members, Function.comp_def] using here
      have items' : u.arrays[ref'.index]? = some (members.map Prod.snd) := by
        simpa [members, Function.comp_def] using here'
      refine .some (.array (own _ List.mem_cons_self) (own' _ List.mem_cons_self) items items' ?_)
      refine List.forall_mem_map.2 fun m member => Alike.orUndefined ?_
      have inside : m.1 ∈ pairs.map Prod.fst := List.mem_map_of_mem member
      have inside' : m.2 ∈ pairs.map Prod.snd := List.mem_map_of_mem member
      have other := each' m.2 inside'
      rw [← agree m member] at other
      exact ih m.1 inside other (List.forall_mem_flatMap.1 newParts m.1 inside)
        (List.forall_mem_flatMap.1 newParts' m.2 inside')
    | _ => cases same
  | @object ref parts here _ ih =>
    generalize same : Expression.object _ = e at built'
    cases built' with
    | @object ref' parts' here' each' =>
      obtain ⟨newParts, own⟩ := List.forall_mem_append.1 new
      obtain ⟨newParts', own'⟩ := List.forall_mem_append.1 new'
      -- The parts that count are the last ones under their names, on both sides alike.
      have kept : (Keyed.ofList Prod.fst parts).map (fun part => (part.1, part.2.expression)) =
          (Keyed.ofList Prod.fst parts').map fun part => (part.1, part.2.expression) := by
        rw [Keyed.map_values_ofList, Expression.object.inj same, ← Keyed.map_values_ofList]
      obtain ⟨members, entries, entries', alike⟩ := exists_members kept
        fun part member part' member' agree => by
          have inside := Keyed.mem_of_mem_ofList member
          have inside' := Keyed.mem_of_mem_ofList member'
          have other := each' part' inside'
          rw [← agree] at other
          exact .orUndefined (ih part inside other (List.forall_mem_flatMap.1 newParts part inside)
            (List.forall_mem_flatMap.1 newParts' part' inside'))
      rw [Keyed.map_values_ofList] at entries entries'
      exact .some (.object (own _ List.mem_cons_self) (own' _ List.mem_cons_self) here here' entries
        entries' alike)
    | _ => cases same

theorem Accessor.alike_reads (closed : s.Closed) {a : Accessor} (callFree : a.CallFree)
    (within : a.Within s) (grows : s.Extends t) (grows' : s.Extends u) :
    Option.Rel (s.Alike (a.read? t).2 (a.read? u).2) (a.read? t).1 (a.read? u).1 := by
  cases a with
  | constant v => exact .some (.same within)
  | pluck path root =>
    rw [read?, Path.walk_of_callFree callFree, Path.walk_of_callFree callFree,
      Path.find_extends closed grows within, Path.find_extends closed grows' within]
    cases found : path.find? s root with
    | none => exact .none
    | some v => exact .some (.same (Path.has_find closed within found))
  | expression e scope =>
    obtain ⟨_, built, gains⟩ := Expression.buildsAnew closed within callFree t grows
    obtain ⟨_, built', gains'⟩ := Expression.buildsAnew closed within callFree u grows'
    exact alike_of_built closed within built built' (gains.new_since grows) (gains'.new_since grows')

end Bindlang
