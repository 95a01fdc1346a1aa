import Bindlang.Proofs.Data.KeyedLists
import Bindlang.Proofs.Parser.Completeness

namespace Bindlang

namespace Grammar

variable {α : Type} {mark : TokenKind} {Item : List Token → α → Prop} {ts us : List Token}

/-- Items with a mark behind each, so that another item must come; or nothing yet. -/
inductive Begun (mark : TokenKind) (Item : List Token → α → Prop) : List Token → List α → Prop
  | nothing : Begun mark Item [] []
  | behind {ts : List Token} {m : Token} {as : List α} (items : Separated mark Item ts as)
      (isMark : m.kind = mark) : Begun mark Item (ts ++ [m]) as

theorem Begun.extend {as : List α} {a : α} (begun : Begun mark Item ts as) (item : Item us a) :
    Separated mark Item (ts ++ us) (as ++ [a]) := by
  cases begun with
  | nothing => exact .one item
  | behind items isMark =>
    rw [List.append_assoc]
    exact items.append isMark (.one item)

theorem Separated.forall_mem {Q : α → Prop} (each : ∀ ts a, Item ts a → Q a) {as : List α}
    (items : Separated mark Item ts as) : ∀ a ∈ as, Q a := by
  induction items with
  | one item => simpa using each _ _ item
  | more item _ _ ih => exact List.forall_mem_cons.2 ⟨each _ _ item, ih⟩

theorem CommaList.forall_mem {Q : α → Prop} (each : ∀ ts a, Item ts a → Q a) {as : List α}
    (items : CommaList Item ts as) : ∀ a ∈ as, Q a := by
  cases items with
  | none => simp
  | some items => exact items.forall_mem each

def FitsAt (limit level : Nat) (ts : List Token) (value : Expression) : Prop :=
  IsValue ts value ∧ value.depth + level ≤ limit

def BindingFits (limit : Nat) (ts : List Token) (b : Binding) : Prop :=
  IsBinding ts b ∧ b.value.depth ≤ limit

variable {limit level : Nat} {o c : Token}

theorem FitsAt.array {values : List Expression} (room : level < limit)
    (opens : o.kind = .leftBracket) (items : CommaList (FitsAt limit (level + 1)) ts values)
    (closes : c.kind = .rightBracket) : FitsAt limit level (o :: (ts ++ [c])) (.array values) := by
  have fit : ∀ ts value, FitsAt limit (level + 1) ts value →
      value.depth + (level + 1) ≤ limit := fun _ _ => And.right
  exact ⟨.array opens (items.imp fun _ _ => And.left) closes,
    Expression.depth_array_add_le_iff.2 ⟨room, items.forall_mem fit⟩⟩

theorem FitsAt.object {values : List (String × Expression)} (room : level < limit)
    (opens : o.kind = .leftBrace)
    (entries : CommaList (IsEntry (FitsAt limit (level + 1))) ts values)
    (closes : c.kind = .rightBrace) : FitsAt limit level (o :: (ts ++ [c])) (.object values) := by
  have fit : ∀ ts value, IsEntry (FitsAt limit (level + 1)) ts value →
      value.2.depth + (level + 1) ≤ limit := by
    intro ts value entry
    cases entry with
    | mk key colon fits => exact fits.2
  exact ⟨.object opens (entries.imp fun _ _ entry => entry.imp fun _ _ => And.left) closes,
    Expression.depth_object_add_le_iff.2 ⟨room, entries.forall_mem fit⟩⟩

end Grammar

namespace Parser

open Grammar

inductive Opened (limit : Nat) : List Token → Hole → Prop
  | binding {n c : Token} (name : n.kind = .identifier) (colon : c.kind = .colon) :
      Opened limit [n, c] ⟨n.lexeme, n.position, []⟩
  | element {ts us : List Token} {hole : Hole} {o : Token} {items : List Expression}
      (before : Opened limit ts hole) (room : hole.frames.length < limit)
      (opens : o.kind = .leftBracket)
      (begun : Begun .comma (FitsAt limit (hole.frames.length + 1)) us items.reverse) :
      Opened limit (ts ++ o :: us) (hole.inArray items)
  | entry {ts us : List Token} {hole : Hole} {o k c : Token} {entries : List (String × Expression)}
      (before : Opened limit ts hole) (room : hole.frames.length < limit)
      (opens : o.kind = .leftBrace)
      (begun : Begun .comma (IsEntry (FitsAt limit (hole.frames.length + 1))) us entries.reverse)
      (key : k.kind = .string ∨ k.kind = .identifier) (colon : c.kind = .colon) :
      Opened limit (ts ++ o :: (us ++ [k, c])) (hole.inObject entries k.lexeme)

/-- The tokens of a binding up to what the machine waits for. -/
inductive Awaits (limit : Nat) : List Token → Awaiting → Prop
  | bindingName : Awaits limit [] .bindingName
  | bindingColon {n : Token} (name : n.kind = .identifier) :
      Awaits limit [n] (.bindingColon n.lexeme n.position)
  | value {ts : List Token} {hole : Hole} (opened : Opened limit ts hole) :
      Awaits limit ts (.value hole)
  | firstElement {ts : List Token} {hole : Hole} {o : Token} (opened : Opened limit ts hole)
      (room : hole.frames.length < limit) (opens : o.kind = .leftBracket) :
      Awaits limit (ts ++ [o]) (.firstElement hole)
  | firstKey {ts : List Token} {hole : Hole} {o : Token} (opened : Opened limit ts hole)
      (room : hole.frames.length < limit) (opens : o.kind = .leftBrace) :
      Awaits limit (ts ++ [o]) (.firstKey hole)
  | nextKey {ts us : List Token} {hole : Hole} {o : Token} {entries : List (String × Expression)}
      (opened : Opened limit ts hole) (room : hole.frames.length < limit)
      (opens : o.kind = .leftBrace)
      (begun : Begun .comma (IsEntry (FitsAt limit (hole.frames.length + 1))) us entries.reverse) :
      Awaits limit (ts ++ o :: us) (.nextKey hole entries)
  | entryColon {ts us : List Token} {hole : Hole} {o k : Token}
      {entries : List (String × Expression)} (opened : Opened limit ts hole)
      (room : hole.frames.length < limit) (opens : o.kind = .leftBrace)
      (begun : Begun .comma (IsEntry (FitsAt limit (hole.frames.length + 1))) us entries.reverse)
      (key : k.kind = .string ∨ k.kind = .identifier) :
      Awaits limit (ts ++ o :: (us ++ [k])) (.entryColon hole entries k.lexeme)
  | nameEnd {ts us : List Token} {hole : Hole} {path : List Segment} {n : Token}
      (opened : Opened limit ts hole) (begun : Begun .dot IsSegment us path.reverse)
      (name : n.kind = .identifier) : Awaits limit (ts ++ (us ++ [n])) (.nameEnd hole path n.lexeme)
  | callEnd {ts us : List Token} {hole : Hole} {path : List Segment} {n l : Token}
      (opened : Opened limit ts hole) (begun : Begun .dot IsSegment us path.reverse)
      (name : n.kind = .identifier) (opens : l.kind = .leftParen) :
      Awaits limit (ts ++ (us ++ [n, l])) (.callEnd hole path n.lexeme)
  | pathEnd {ts us : List Token} {hole : Hole} {path : List Segment}
      (opened : Opened limit ts hole) (isPath : IsPath us path.reverse) :
      Awaits limit (ts ++ us) (.pathEnd hole path)
  | memberName {ts us : List Token} {hole : Hole} {path : List Segment}
      (opened : Opened limit ts hole) (begun : Begun .dot IsSegment us path.reverse) :
      Awaits limit (ts ++ us) (.memberName hole path)
  | element {ts us : List Token} {hole : Hole} {o : Token} {items : List Expression}
      (opened : Opened limit ts hole) (room : hole.frames.length < limit)
      (opens : o.kind = .leftBracket)
      (read : Separated .comma (FitsAt limit (hole.frames.length + 1)) us items.reverse) :
      Awaits limit (ts ++ o :: us) (.separator (.element hole items))
  | entry {ts us : List Token} {hole : Hole} {o : Token} {entries : List (String × Expression)}
      (opened : Opened limit ts hole) (room : hole.frames.length < limit)
      (opens : o.kind = .leftBrace)
      (read : Separated .comma (IsEntry (FitsAt limit (hole.frames.length + 1))) us
        entries.reverse) :
      Awaits limit (ts ++ o :: us) (.separator (.entry hole entries))

/-- The tokens up to a state: finished bindings, and a beginning of another one. -/
inductive Reads (rules : Rules) : List Token → State → Prop
  | within {pre ts : List Token} {raw bindings : List Binding} {awaiting : Awaiting}
      (earlier : Begun .comma (BindingFits rules.maxDepth) pre raw)
      (added : raw.foldlM (add rules.duplicates) [] = .ok bindings)
      (awaits : Awaits rules.maxDepth ts awaiting) : Reads rules (pre ++ ts) ⟨bindings, awaiting⟩
  | behind {ts : List Token} {raw bindings : List Binding}
      (read : Separated .comma (BindingFits rules.maxDepth) ts raw)
      (added : raw.foldlM (add rules.duplicates) [] = .ok bindings) :
      Reads rules ts ⟨bindings, .separator .binding⟩

variable {rules : Rules} {pre ts us : List Token} {t : Token} {raw bindings : List Binding}
  {hole : Hole} {s' : State}

theorem Reads.complete (earlier : Begun .comma (BindingFits rules.maxDepth) pre raw)
    (added : raw.foldlM (add rules.duplicates) [] = .ok bindings)
    (opened : Opened rules.maxDepth ts hole) {value : Expression}
    (fits : FitsAt rules.maxDepth hole.frames.length us value)
    (done : Parser.complete rules.duplicates bindings hole value = .ok s') :
    ∃ bindings' separator, s' = ⟨bindings', .separator separator⟩ ∧
      Reads rules (pre ++ (ts ++ us)) s' := by
  cases opened with
  | @binding n c name colon =>
    rw [complete_binding rules.duplicates ⟨n.lexeme, value, n.position⟩] at done
    cases put : add rules.duplicates bindings ⟨n.lexeme, value, n.position⟩ with
    | error e => simp [put, Except.map] at done
    | ok bindings' =>
      simp only [put, Except.map, Except.ok.injEq] at done
      subst done
      refine ⟨bindings', .binding, rfl, .behind (earlier.extend ⟨.mk name colon fits.1, fits.2⟩) ?_⟩
      rw [List.foldlM_append, added]
      simpa using put
  | @element before us' hole o items before' room opens begun =>
    cases done
    refine ⟨_, _, rfl, ?_⟩
    rw [List.append_assoc]
    exact .within earlier added (.element before' room opens (by simpa using begun.extend fits))
  | @entry before us' hole o k c entries before' room opens begun key colon =>
    cases done
    refine ⟨_, _, rfl, ?_⟩
    rw [List.append_assoc, List.cons_append, List.append_assoc]
    exact .within earlier added
      (.entry before' room opens (by simpa using begun.extend (.mk key colon fits)))

theorem eq_of_openContainer {limit : Nat} {next : State}
    (opened : openContainer limit hole t next = .ok s') :
    hole.frames.length < limit ∧ s' = next := by
  unfold openContainer at opened
  split at opened
  · cases opened
  · rename_i room
    cases opened
    exact ⟨Nat.lt_of_not_le room, rfl⟩

theorem eq_of_take {kind : TokenKind} {next : State} {e : ParseError}
    (took : (if t.kind = kind then Except.ok next else .error e) = .ok s') :
    t.kind = kind ∧ s' = next := by
  split at took
  · rename_i same
    cases took
    exact ⟨same, rfl⟩
  · cases took

theorem isPath_of_name {path : List Segment} (begun : Begun .dot IsSegment us path.reverse)
    (name : t.kind = .identifier) : IsPath (us ++ [t]) (⟨t.lexeme, false⟩ :: path).reverse := by
  have extended := begun.extend (.member name)
  rwa [List.reverse_cons]

theorem isPath_of_call {path : List Segment} {n l : Token}
    (begun : Begun .dot IsSegment us path.reverse) (name : n.kind = .identifier)
    (opens : l.kind = .leftParen) (closes : t.kind = .rightParen) :
    IsPath (us ++ [n, l, t]) (⟨n.lexeme, true⟩ :: path).reverse := by
  have extended := begun.extend (.call name opens closes)
  rwa [List.reverse_cons]

theorem Opened.frames_le {limit : Nat} (opened : Opened limit ts hole) :
    hole.frames.length ≤ limit := by
  cases opened with
  | binding => exact Nat.zero_le limit
  | element _ room | entry _ room => exact room

theorem Reads.beginValue (earlier : Begun .comma (BindingFits rules.maxDepth) pre raw)
    (added : raw.foldlM (add rules.duplicates) [] = .ok bindings)
    (opened : Opened rules.maxDepth ts hole)
    (took : Parser.beginValue rules bindings hole t = .ok s') :
    Reads rules (pre ++ (ts ++ [t])) s' := by
  have literal {l : Literal} (isLiteral : IsLiteral t l)
      (done : Parser.complete rules.duplicates bindings hole (.literal l) = .ok s') :
      Reads rules (pre ++ (ts ++ [t])) s' := by
    have fits : FitsAt rules.maxDepth hole.frames.length [t] (.literal l) :=
      ⟨.literal isLiteral, by simpa using opened.frames_le⟩
    obtain ⟨_, _, _, reads⟩ := Reads.complete earlier added opened fits done
    exact reads
  unfold Parser.beginValue at took
  split at took
  · rename_i kind
    exact literal (.string kind) took
  · rename_i kind
    split at took
    · rename_i l reads
      exact literal (.number kind reads) took
    · cases took
  · rename_i kind
    exact literal (.boolean kind) took
  · rename_i kind
    exact literal (.null kind) took
  · rename_i kind
    exact literal (.undefined kind) took
  · rename_i kind
    obtain ⟨level, rfl⟩ := eq_of_openContainer took
    exact .within earlier added (.firstElement opened level kind)
  · rename_i kind
    obtain ⟨level, rfl⟩ := eq_of_openContainer took
    exact .within earlier added (.firstKey opened level kind)
  · rename_i kind
    cases took
    have named : Awaits rules.maxDepth (ts ++ ([] ++ [t])) (.nameEnd hole [] t.lexeme) :=
      .nameEnd opened .nothing kind
    exact .within earlier added named
  · cases took

theorem Reads.beginEntry {o : Token} {entries : List (String × Expression)}
    (earlier : Begun .comma (BindingFits rules.maxDepth) pre raw)
    (added : raw.foldlM (add rules.duplicates) [] = .ok bindings)
    (opened : Opened rules.maxDepth ts hole) (room : hole.frames.length < rules.maxDepth)
    (opens : o.kind = .leftBrace)
    (begun : Begun .comma (IsEntry (FitsAt rules.maxDepth (hole.frames.length + 1))) us
      entries.reverse)
    (took : Parser.beginEntry bindings hole entries t = .ok s') :
    Reads rules (pre ++ (ts ++ o :: (us ++ [t]))) s' := by
  unfold Parser.beginEntry at took
  split at took
  · rename_i key
    cases took
    exact .within earlier added (.entryColon opened room opens begun key)
  · cases took

theorem Reads.separate {separator : Separator}
    (reads : Reads rules ts ⟨bindings, .separator separator⟩)
    (took : Parser.separate rules.duplicates bindings t separator = .ok s') :
    Reads rules (ts ++ [t]) s' := by
  cases reads with
  | behind read added =>
    simp only [Parser.separate] at took
    split at took
    · rename_i comma
      cases took
      simpa using Reads.within (.behind read comma) added .bindingName
    · cases took
  | within earlier added awaits =>
    rw [List.append_assoc]
    cases awaits with
    | element opened room opens read =>
      simp only [Parser.separate] at took
      split at took
      · rename_i comma
        cases took
        rw [List.append_assoc]
        exact .within earlier added (.value (.element opened room opens (.behind read comma)))
      · split at took
        · rename_i closes
          obtain ⟨_, _, _, done⟩ :=
            Reads.complete earlier added opened (.array room opens (.some read) closes) took
          simpa using done
        · cases took
    | entry opened room opens read =>
      simp only [Parser.separate] at took
      split at took
      · rename_i comma
        cases took
        rw [List.append_assoc]
        exact .within earlier added (.nextKey opened room opens (.behind read comma))
      · split at took
        · rename_i closes
          obtain ⟨_, _, _, done⟩ :=
            Reads.complete earlier added opened (.object room opens (.some read) closes) took
          simpa using done
        · cases took

theorem Reads.leavePath {path : List Segment}
    (earlier : Begun .comma (BindingFits rules.maxDepth) pre raw)
    (added : raw.foldlM (add rules.duplicates) [] = .ok bindings)
    (opened : Opened rules.maxDepth ts hole) (isPath : IsPath us path.reverse)
    (took : Parser.leavePath rules.duplicates bindings hole path t = .ok s') :
    Reads rules (pre ++ (ts ++ us) ++ [t]) s' := by
  rw [leavePath_eq] at took
  obtain ⟨s, done, took⟩ := Except.bind_eq_ok_iff.1 took
  have fits : FitsAt rules.maxDepth hole.frames.length us (.path path.reverse) :=
    ⟨.path isPath, by simpa using opened.frames_le⟩
  obtain ⟨bindings', separator, rfl, reads⟩ := Reads.complete earlier added opened fits done
  exact reads.separate took

theorem Reads.step {s : State} (reads : Reads rules ts s)
    (took : Parser.step rules s t = .ok s') : Reads rules (ts ++ [t]) s' := by
  cases reads with
  | behind read added => exact Reads.separate (.behind read added) took
  | @within pre ts raw bindings awaiting earlier added awaits =>
    have next {awaiting' : Awaiting} (awaits : Awaits rules.maxDepth (ts ++ [t]) awaiting') :
        Reads rules (pre ++ ts ++ [t]) ⟨bindings, awaiting'⟩ := by
      rw [List.append_assoc]
      exact .within earlier added awaits
    cases awaits with
    | bindingName =>
      obtain ⟨name, rfl⟩ := eq_of_take took
      exact next (.bindingColon name)
    | bindingColon name =>
      obtain ⟨colon, rfl⟩ := eq_of_take took
      exact next (.value (.binding name colon))
    | value opened =>
      rw [List.append_assoc]
      exact Reads.beginValue earlier added opened took
    | firstElement opened room opens =>
      simp only [Parser.step] at took
      split at took
      · rename_i closes
        obtain ⟨_, _, _, done⟩ :=
          Reads.complete earlier added opened (.array room opens .none closes) took
        simpa using done
      · rw [List.append_assoc]
        exact Reads.beginValue earlier added (.element opened room opens .nothing) took
    | @firstKey ts hole o opened room opens =>
      simp only [Parser.step] at took
      split at took
      · rename_i closes
        obtain ⟨_, _, _, done⟩ :=
          Reads.complete earlier added opened (.object room opens .none closes) took
        simpa using done
      · have begun : Begun .comma (IsEntry (FitsAt rules.maxDepth (hole.frames.length + 1))) []
            [].reverse := .nothing
        simpa using Reads.beginEntry earlier added opened room opens begun took
    | nextKey opened room opens begun =>
      simpa using Reads.beginEntry earlier added opened room opens begun took
    | entryColon opened room opens begun key =>
      obtain ⟨colon, rfl⟩ := eq_of_take took
      exact next (.value (by simpa using Opened.entry opened room opens begun key colon))
    | nameEnd opened begun name =>
      have isPath := isPath_of_name begun name
      simp only [Parser.step] at took
      split at took
      · rename_i opens
        cases took
        exact next (by simpa using Awaits.callEnd opened begun name opens)
      · split at took
        · rename_i dot
          cases took
          exact next (by simpa using Awaits.memberName opened (.behind isPath dot))
        · exact Reads.leavePath earlier added opened isPath took
    | callEnd opened begun name opens =>
      obtain ⟨closes, rfl⟩ := eq_of_take took
      have isPath := isPath_of_call begun name opens closes
      exact next (by simpa using Awaits.pathEnd opened isPath)
    | pathEnd opened isPath =>
      simp only [Parser.step] at took
      split at took
      · rename_i dot
        cases took
        exact next (by simpa using Awaits.memberName opened (.behind isPath dot))
      · exact Reads.leavePath earlier added opened isPath took
    | memberName opened begun =>
      obtain ⟨name, rfl⟩ := eq_of_take took
      exact next (by simpa using Awaits.nameEnd opened begun name)
    | element opened room opens read =>
      exact Reads.separate (.within earlier added (.element opened room opens read)) took
    | entry opened room opens read =>
      exact Reads.separate (.within earlier added (.entry opened room opens read)) took

theorem Reads.run {s : State} (reads : Reads rules ts s)
    (ran : Parser.run rules s us = .ok s') : Reads rules (ts ++ us) s' := by
  induction us generalizing ts s with
  | nil =>
    cases ran
    simpa using reads
  | cons t us ih =>
    rw [run_cons] at ran
    obtain ⟨s₁, took, ran⟩ := Except.bind_eq_ok_iff.1 ran
    simpa using ih (reads.step took) ran

theorem reads_start (rules : Rules) : Reads rules [] start :=
  .within .nothing rfl .bindingName

theorem Reads.endBehind {separator : Separator} {bindings' : List Binding}
    (reads : Reads rules ts ⟨bindings, .separator separator⟩)
    (done : Parser.endBehind bindings separator = .ok bindings') :
    ∃ raw, Separated .comma (BindingFits rules.maxDepth) ts raw ∧
      raw.foldlM (add rules.duplicates) [] = .ok bindings' := by
  cases reads with
  | behind read added =>
    cases done
    exact ⟨_, read, added⟩
  | within _ _ awaits => cases awaits <;> cases done

theorem Reads.endPath {path : List Segment} {bindings' : List Binding}
    (earlier : Begun .comma (BindingFits rules.maxDepth) pre raw)
    (added : raw.foldlM (add rules.duplicates) [] = .ok bindings)
    (opened : Opened rules.maxDepth ts hole) (isPath : IsPath us path.reverse)
    (done : Parser.endPath rules.duplicates bindings hole path = .ok bindings') :
    ∃ raw, Separated .comma (BindingFits rules.maxDepth) (pre ++ (ts ++ us)) raw ∧
      raw.foldlM (add rules.duplicates) [] = .ok bindings' := by
  rw [endPath_eq] at done
  obtain ⟨s, completed, done⟩ := Except.bind_eq_ok_iff.1 done
  have fits : FitsAt rules.maxDepth hole.frames.length us (.path path.reverse) :=
    ⟨.path isPath, by simpa using opened.frames_le⟩
  obtain ⟨_, _, rfl, reads⟩ := Reads.complete earlier added opened fits completed
  exact reads.endBehind done

theorem Reads.finish {s : State} {bindings' : List Binding} (reads : Reads rules ts s)
    (done : Parser.finish rules.duplicates s = .ok bindings') :
    ∃ raw, Separated .comma (BindingFits rules.maxDepth) ts raw ∧
      raw.foldlM (add rules.duplicates) [] = .ok bindings' := by
  cases reads with
  | behind read added => exact Reads.endBehind (.behind read added) done
  | within earlier added awaits =>
    cases awaits with
    | nameEnd opened begun name =>
      exact Reads.endPath earlier added opened (isPath_of_name begun name) done
    | pathEnd opened isPath => exact Reads.endPath earlier added opened isPath done
    | _ => cases done

theorem isBindings_of_parse (accepted : parse rules ts = .ok bindings) :
    ∃ raw, CommaList (BindingFits rules.maxDepth) ts raw ∧
      raw.foldlM (add rules.duplicates) [] = .ok bindings := by
  unfold parse at accepted
  split at accepted
  · rename_i empty
    cases accepted
    exact ⟨[], empty ▸ .none, rfl⟩
  · obtain ⟨s, ran, done⟩ := Except.bind_eq_ok_iff.1 accepted
    obtain ⟨raw, read, added⟩ := ((reads_start rules).run ran).finish done
    exact ⟨raw, .some read, added⟩

/-- The parser accepts what the grammar derives within the limit and no name refuses. -/
theorem parse_eq_ok_iff :
    parse rules ts = .ok bindings ↔ ∃ raw, IsBindings ts raw ∧
      (∀ b ∈ raw, b.value.depth ≤ rules.maxDepth) ∧
      raw.foldlM (add rules.duplicates) [] = .ok bindings := by
  constructor
  · intro accepted
    obtain ⟨raw, read, added⟩ := isBindings_of_parse accepted
    have room : ∀ ts b, BindingFits rules.maxDepth ts b → b.value.depth ≤ rules.maxDepth :=
      fun _ _ => And.right
    exact ⟨raw, read.imp fun _ _ => And.left, read.forall_mem room, added⟩
  · rintro ⟨raw, isBindings, room, added⟩
    rw [parse_of_isBindings isBindings room, added]

theorem mem_of_add {policy : DuplicatePolicy} {kept : List Binding} {b : Binding}
    (added : add policy kept b = .ok bindings) :
    ∀ c ∈ bindings, c = b ∨ c ∈ kept := by
  unfold add at added
  split at added
  · cases added
  · cases added
    exact fun c => Keyed.mem_of_mem_put

theorem mem_of_foldlM_add {policy : DuplicatePolicy} {kept : List Binding}
    (added : raw.foldlM (add policy) kept = .ok bindings) :
    ∀ b ∈ bindings, b ∈ kept ∨ b ∈ raw := by
  induction raw generalizing kept with
  | nil =>
    cases added
    exact fun b member => .inl member
  | cons first raw ih =>
    rw [List.foldlM_cons] at added
    obtain ⟨next, addedFirst, added⟩ := Except.bind_eq_ok_iff.1 added
    intro b member
    rcases ih added b member with before | behind
    · rcases mem_of_add addedFirst b before with rfl | before
      · exact .inr List.mem_cons_self
      · exact .inl before
    · exact .inr (List.mem_cons_of_mem first behind)

theorem nodup_of_add {policy : DuplicatePolicy} {kept : List Binding} {b : Binding}
    (distinct : (kept.map Binding.name).Nodup) (added : add policy kept b = .ok bindings) :
    (bindings.map Binding.name).Nodup := by
  unfold add at added
  split at added
  · cases added
  · cases added
    exact Keyed.nodup_put Binding.name distinct

theorem nodup_of_foldlM_add {policy : DuplicatePolicy} {kept : List Binding}
    (distinct : (kept.map Binding.name).Nodup)
    (added : raw.foldlM (add policy) kept = .ok bindings) :
    (bindings.map Binding.name).Nodup := by
  induction raw generalizing kept with
  | nil =>
    cases added
    exact distinct
  | cons b raw ih =>
    rw [List.foldlM_cons] at added
    obtain ⟨next, addedFirst, added⟩ := Except.bind_eq_ok_iff.1 added
    exact ih (nodup_of_add distinct addedFirst) added

theorem nodup_of_parse (accepted : parse rules ts = .ok bindings) :
    (bindings.map Binding.name).Nodup := by
  obtain ⟨raw, _, _, added⟩ := parse_eq_ok_iff.1 accepted
  have nothing : (([] : List Binding).map Binding.name).Nodup := List.nodup_nil
  exact nodup_of_foldlM_add nothing added

theorem depth_le_of_parse (accepted : parse rules ts = .ok bindings) :
    ∀ b ∈ bindings, b.value.depth ≤ rules.maxDepth := by
  obtain ⟨raw, _, room, added⟩ := parse_eq_ok_iff.1 accepted
  intro b member
  rcases mem_of_foldlM_add added b member with none | member
  · cases none
  · exact room b member

theorem foldlM_add_lastWins (raw kept : List Binding) :
    raw.foldlM (add .lastWins) kept = .ok (Keyed.putAll Binding.name kept raw) := by
  induction raw generalizing kept with
  | nil => rfl
  | cons b raw ih =>
    rw [List.foldlM_cons, add_lastWins, Except.ok_bind, ih]
    rfl

/-- The parser accepts exactly the grammar within the limit, and keeps each name once. -/
theorem parse_lastWins_eq_ok_iff (maxDepth : Nat) (tokens : List Token) (bindings : List Binding) :
    parse ⟨.lastWins, maxDepth⟩ tokens = .ok bindings ↔
      ∃ raw, IsBindings tokens raw ∧ (∀ b ∈ raw, b.value.depth ≤ maxDepth) ∧
        Keyed.Merges Binding.name raw bindings := by
  simp only [parse_eq_ok_iff, foldlM_add_lastWins, Except.ok.injEq, Keyed.merges_iff,
    Keyed.ofList, eq_comm (a := bindings)]

end Parser
end Bindlang
