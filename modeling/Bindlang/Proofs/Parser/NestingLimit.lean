import Bindlang.Proofs.Parser.ErrorCauses
import Mathlib.Algebra.Ring.Int.Defs

namespace Bindlang

namespace Token

def opening (t : Token) : Int :=
  match t.kind with
  | .leftBracket | .leftBrace => 1
  | .rightBracket | .rightBrace => -1
  | _ => 0

/-- The opening brackets and braces less the closing ones. -/
def level (ts : List Token) : Int :=
  (ts.map opening).sum

def peak : List Token → Int
  | [] => 0
  | t :: ts => max 0 (t.opening + peak ts)

variable {ts us : List Token} {t : Token}

@[simp] theorem level_nil : level [] = 0 := rfl

@[simp] theorem level_cons (t : Token) (ts : List Token) :
    level (t :: ts) = t.opening + level ts := by
  simp [level]

@[simp] theorem level_append (ts us : List Token) : level (ts ++ us) = level ts + level us := by
  simp [level]

theorem peak_nonneg (ts : List Token) : 0 ≤ peak ts := by
  cases ts with
  | nil => exact Int.le_refl 0
  | cons t ts => exact Int.le_max_left _ _

theorem peak_append (ts us : List Token) :
    peak (ts ++ us) = max (peak ts) (level ts + peak us) := by
  induction ts with
  | nil =>
    have := peak_nonneg us
    simp only [List.nil_append, peak, level_nil]
    omega
  | cons t ts ih =>
    simp only [List.cons_append, peak, level_cons, ih]
    omega

theorem peak_le_iff {n : Int} : peak ts ≤ n ↔ ∀ us, us <+: ts → level us ≤ n := by
  induction ts generalizing n with
  | nil => simp [peak]
  | cons t ts ih =>
    have behind := ih (n := n - t.opening)
    rw [peak, Int.max_le]
    constructor
    · rintro ⟨start, low⟩ us initial
      rcases List.prefix_cons_iff.1 initial with rfl | ⟨us, rfl, rest⟩
      · exact start
      · have := behind.1 (by omega) us rest
        rw [level_cons]
        omega
    · intro low
      have more : ∀ us, us <+: ts → level us ≤ n - t.opening := by
        intro us initial
        have := low (t :: us) (List.cons_prefix_cons.2 ⟨rfl, initial⟩)
        rw [level_cons] at this
        omega
      have := behind.2 more
      exact ⟨low [] List.nil_prefix, by omega⟩

end Token

namespace Grammar

open Token Expression

variable {α : Type} {mark : TokenKind} {Item : List Token → α → Prop} {ts : List Token}
  {t : Token} {as : List α} {size : α → Nat} {n : Nat}

/-- The tokens close what they open, with `n` containers inside each other at most. -/
structure Nests (ts : List Token) (n : Nat) : Prop where
  level : level ts = 0
  peak : peak ts = n

theorem nests_flat (flat : ∀ t ∈ ts, t.opening = 0) : Nests ts 0 := by
  induction ts with
  | nil => exact ⟨rfl, rfl⟩
  | cons t ts ih =>
    obtain ⟨here, behind⟩ := List.forall_mem_cons.1 flat
    have others := ih behind
    constructor
    · rw [level_cons, here, others.level, Int.zero_add]
    · rw [Token.peak, here, others.peak]
      rfl

theorem IsLiteral.opening_eq {l : Literal} (isLiteral : IsLiteral t l) : t.opening = 0 := by
  cases isLiteral with
  | string kind | number kind | boolean kind | null kind | undefined kind => simp [opening, kind]

theorem IsSegment.opening_eq {s : Segment} (isSegment : IsSegment ts s) :
    ∀ t ∈ ts, t.opening = 0 := by
  cases isSegment with
  | member name => simp [opening, name]
  | call name opens closes => simp [opening, name, opens, closes]

theorem opening_of_flat {kind : TokenKind} (same : t.kind = kind)
    (flat : opening ⟨kind, "", .start⟩ = 0) : t.opening = 0 := by
  rw [← flat, opening, opening, same]

theorem IsPath.opening_eq {p : Path} (isPath : IsPath ts p) : ∀ t ∈ ts, t.opening = 0 := by
  unfold IsPath at isPath
  induction isPath with
  | one segment => exact segment.opening_eq
  | more segment dot _ ih =>
    intro t member
    rcases List.mem_append.1 member with member | member
    · exact segment.opening_eq t member
    · rcases List.mem_cons.1 member with rfl | member
      · exact opening_of_flat dot rfl
      · exact ih t member

theorem Separated.nests (each : ∀ ts a, Item ts a → Nests ts (size a))
    (items : Separated .comma Item ts as) : Nests ts (as.greatest size) := by
  induction items with
  | @one ts a item => simpa [List.greatest] using each ts a item
  | @more ts us m a as item comma _ ih =>
    have first := each ts a item
    have flat : m.opening = 0 := opening_of_flat comma rfl
    constructor
    · rw [level_append, level_cons, first.level, flat, ih.level]
      rfl
    · rw [peak_append, first.level, first.peak, Token.peak, flat, ih.peak, List.greatest]
      omega

theorem CommaList.nests (each : ∀ ts a, Item ts a → Nests ts (size a))
    (items : CommaList Item ts as) : Nests ts (as.greatest size) := by
  cases items with
  | none => exact nests_flat (by simp)
  | some items => exact items.nests each

theorem Nests.container {o c : Token} (inside : Nests ts n) (opens : o.opening = 1)
    (closes : c.opening = -1) : Nests (o :: (ts ++ [c])) (n + 1) := by
  constructor
  · simp [inside.level, opens, closes]
  · rw [Token.peak, peak_append, inside.level, inside.peak, Token.peak, Token.peak, opens, closes]
    omega

theorem Nests.labelled {k c : Token} (inside : Nests ts n) (flatKey : k.opening = 0)
    (colon : c.kind = .colon) : Nests (k :: c :: ts) n := by
  have flatColon : c.opening = 0 := opening_of_flat colon rfl
  constructor
  · simp [flatKey, flatColon, inside.level]
  · rw [Token.peak, Token.peak, flatKey, flatColon, inside.peak]
    omega

theorem IsEntry.nests {Value : List Token → Expression → Prop} {entry : String × Expression}
    (each : ∀ ts e, Value ts e → Nests ts e.depth) (isEntry : IsEntry Value ts entry) :
    Nests ts entry.2.depth := by
  cases isEntry with
  | mk key colon value =>
    apply (each _ _ value).labelled _ colon
    rcases key with kind | kind <;> exact opening_of_flat kind rfl

theorem IsValue.nests {e : Expression} (isValue : IsValue ts e) : Nests ts e.depth := by
  apply isValue.inductionOn (motive := fun ts e => Nests ts e.depth)
  case literal =>
    intro t l isLiteral
    rw [depth_literal]
    exact nests_flat (by simpa using isLiteral.opening_eq)
  case path =>
    intro ts p isPath
    rw [depth_path]
    exact nests_flat isPath.opening_eq
  case array =>
    intro o c ts es opens items closes
    rw [depth, depthOfItems_eq_greatest]
    have inside := items.nests fun _ _ item => item.2
    exact inside.container (by rw [opening, opens]) (by rw [opening, closes])
  case object =>
    intro o c ts es opens entries closes
    rw [depth, depthOfEntries_eq_greatest]
    have inside := entries.nests fun _ _ entry => entry.nests fun _ _ value => value.2
    exact inside.container (by rw [opening, opens]) (by rw [opening, closes])

theorem IsBinding.nests {b : Binding} (isBinding : IsBinding ts b) : Nests ts b.value.depth := by
  cases isBinding with
  | mk name colon value => exact value.nests.labelled (opening_of_flat name rfl) colon

theorem IsBindings.peak_le_iff {raw : List Binding} (isBindings : IsBindings ts raw) :
    peak ts ≤ n ↔ ∀ b ∈ raw, b.value.depth ≤ n := by
  have each : ∀ ts b, IsBinding ts b → Nests ts b.value.depth := fun _ _ => IsBinding.nests
  have nests := CommaList.nests each isBindings
  rw [nests.peak, Int.ofNat_le, List.greatest_le_iff]

end Grammar

namespace Parser

open Token

def Separator.level : Separator → Nat
  | binding => 0
  | element hole _ | entry hole _ => hole.frames.length + 1

def Awaiting.level : Awaiting → Nat
  | bindingName | bindingColon _ _ => 0
  | value hole | nameEnd hole _ _ | callEnd hole _ _ | pathEnd hole _ | memberName hole _ =>
    hole.frames.length
  | firstElement hole | firstKey hole | nextKey hole _ | entryColon hole _ _ =>
    hole.frames.length + 1
  | separator s => s.level

variable {rules : Rules} {policy : DuplicatePolicy} {kept : List Binding} {hole : Hole}
  {t : Token} {ts : List Token} {s s' : State} {value : Expression} {limit higher n n' : Nat}

structure Shifts (limit : Nat) (t : Token) (before after : Nat) : Prop where
  level : (after : Int) = before + t.opening
  room : after ≤ before ∨ after ≤ limit

theorem shifts_flat (flat : t.opening = 0) : Shifts limit t n n :=
  ⟨by rw [flat, Int.add_zero], .inl (Nat.le_refl n)⟩

theorem shifts_down (closes : t.opening = -1) : Shifts limit t (n + 1) n :=
  ⟨by rw [closes]; omega, .inl (Nat.le_succ n)⟩

theorem level_of_fill {kept' : List Binding} {separator : Separator}
    (filled : fill policy kept hole value = .ok (kept', separator)) :
    separator.level = hole.frames.length := by
  unfold fill at filled
  split at filled
  · rename_i none
    obtain ⟨_, _, same⟩ := Except.map_eq_ok_iff.1 filled
    cases same
    rw [none]
    rfl
  · rename_i some
    cases filled
    rw [some]
    rfl
  · rename_i some
    cases filled
    rw [some]
    rfl

theorem level_of_complete (done : complete policy kept hole value = .ok s') :
    s'.awaiting.level = hole.frames.length := by
  obtain ⟨⟨kept', separator⟩, filled, rfl⟩ := Except.map_eq_ok_iff.1 done
  have level := level_of_fill filled
  exact level

theorem shifts_of_beginValue (took : beginValue rules kept hole t = .ok s') :
    Shifts rules.maxDepth t hole.frames.length s'.awaiting.level := by
  have literal {value : Expression} (flat : t.opening = 0)
      (done : complete rules.duplicates kept hole value = .ok s') :
      Shifts rules.maxDepth t hole.frames.length s'.awaiting.level := by
    rw [level_of_complete done]
    exact shifts_flat flat
  have container {next : State} (opens : t.opening = 1)
      (deeper : next.awaiting.level = hole.frames.length + 1)
      (done : openContainer rules.maxDepth hole t next = .ok s') :
      Shifts rules.maxDepth t hole.frames.length s'.awaiting.level := by
    obtain ⟨room, rfl⟩ := eq_of_openContainer done
    rw [deeper]
    exact ⟨by rw [opens]; rfl, .inr room⟩
  unfold beginValue at took
  split at took
  · rename_i kind
    exact literal (by rw [opening, kind]) took
  · rename_i kind
    split at took
    · exact literal (by rw [opening, kind]) took
    · cases took
  · rename_i kind
    exact literal (by rw [opening, kind]) took
  · rename_i kind
    exact literal (by rw [opening, kind]) took
  · rename_i kind
    exact literal (by rw [opening, kind]) took
  · rename_i kind
    exact container (by rw [opening, kind]) rfl took
  · rename_i kind
    exact container (by rw [opening, kind]) rfl took
  · rename_i kind
    cases took
    apply shifts_flat
    rw [opening, kind]
  · cases took

theorem shifts_of_take {kind : TokenKind} {next : State} {e : ParseError}
    (took : (if t.kind = kind then Except.ok next else .error e) = .ok s')
    (same : next.awaiting.level = n) (flat : opening ⟨kind, "", .start⟩ = 0) :
    Shifts limit t n s'.awaiting.level := by
  obtain ⟨kind, rfl⟩ := eq_of_take took
  rw [same]
  exact shifts_flat (Grammar.opening_of_flat kind flat)

theorem shifts_of_beginEntry {entries : List (String × Expression)}
    (took : beginEntry kept hole entries t = .ok s') :
    Shifts limit t (hole.frames.length + 1) s'.awaiting.level := by
  unfold beginEntry at took
  split at took
  · rename_i key
    cases took
    apply shifts_flat
    rcases key with kind | kind <;> exact Grammar.opening_of_flat kind rfl
  · cases took

theorem shifts_of_separate {separator : Separator}
    (took : separate policy kept t separator = .ok s') :
    Shifts limit t separator.level s'.awaiting.level := by
  cases separator with
  | binding => exact shifts_of_take took rfl rfl
  | element hole items | entry hole entries =>
    simp only [separate] at took
    split at took
    · rename_i comma
      cases took
      exact shifts_flat (Grammar.opening_of_flat comma rfl)
    · split at took
      · rename_i closes
        rw [level_of_complete took]
        exact shifts_down (by rw [opening, closes])
      · cases took

theorem shifts_of_leavePath {path : List Segment}
    (took : leavePath policy kept hole path t = .ok s') :
    Shifts limit t hole.frames.length s'.awaiting.level := by
  obtain ⟨⟨kept', separator⟩, filled, took⟩ := Except.bind_eq_ok_iff.1 took
  rw [← level_of_fill filled]
  exact shifts_of_separate took

/-- The machine counts its open containers as one counts brackets. -/
theorem shifts_of_step (took : step rules s t = .ok s') :
    Shifts rules.maxDepth t s.awaiting.level s'.awaiting.level := by
  obtain ⟨kept, awaiting⟩ := s
  cases awaiting with
  | bindingName | bindingColon | entryColon => exact shifts_of_take took rfl rfl
  | callEnd | memberName => exact shifts_of_take took rfl rfl
  | value hole => exact shifts_of_beginValue took
  | firstElement hole =>
    simp only [step] at took
    split at took
    · rename_i closes
      rw [level_of_complete took]
      exact shifts_down (by rw [opening, closes])
    · have shifts := shifts_of_beginValue took
      exact shifts
  | firstKey hole =>
    simp only [step] at took
    split at took
    · rename_i closes
      rw [level_of_complete took]
      exact shifts_down (by rw [opening, closes])
    · exact shifts_of_beginEntry took
  | nextKey hole entries => exact shifts_of_beginEntry took
  | nameEnd hole path name =>
    simp only [step] at took
    split at took
    · rename_i opens
      cases took
      exact shifts_flat (Grammar.opening_of_flat opens rfl)
    · split at took
      · rename_i dot
        cases took
        exact shifts_flat (Grammar.opening_of_flat dot rfl)
      · exact shifts_of_leavePath took
  | pathEnd hole path =>
    simp only [step] at took
    split at took
    · rename_i dot
      cases took
      exact shifts_flat (Grammar.opening_of_flat dot rfl)
    · exact shifts_of_leavePath took
  | separator separator => exact shifts_of_separate took

theorem level_of_run (within : s.awaiting.level ≤ rules.maxDepth) (ran : run rules s ts = .ok s') :
    s'.awaiting.level = s.awaiting.level + level ts ∧
      s.awaiting.level + peak ts ≤ rules.maxDepth ∧ s'.awaiting.level ≤ rules.maxDepth := by
  induction ts generalizing s with
  | nil =>
    cases ran
    rw [level_nil, peak]
    omega
  | cons t ts ih =>
    rw [run_cons] at ran
    obtain ⟨s₁, took, ran⟩ := Except.bind_eq_ok_iff.1 ran
    obtain ⟨shift, room⟩ := shifts_of_step took
    have behind := ih (by omega) ran
    rw [level_cons, peak]
    omega

theorem level_of_run_start (ran : run rules start ts = .ok s) :
    s.awaiting.level = level ts ∧ peak ts ≤ rules.maxDepth ∧ s.awaiting.level ≤ rules.maxDepth := by
  have closed : start.awaiting.level = 0 := rfl
  have along := level_of_run (by omega) ran
  omega

def NotTooDeep {α : Type} (x : Except ParseError α) : Prop :=
  ∀ n p, x ≠ .error (.nestingTooDeep n p)

/-- The same outcomes, unless `t` opens one container more than the lower limit allows. -/
inductive Limited (limit level : Nat) (t : Token) (x y : Except ParseError State) : Prop
  | same (equal : x = y) (notTooDeep : NotTooDeep x)
  | cut (met : x = .error (.nestingTooDeep limit t.position)) (opens : t.opening = 1)
      (full : limit ≤ level)

theorem notTooDeep_take {kind : TokenKind} {next : State} {expected : Expected} :
    NotTooDeep
      (if t.kind = kind then Except.ok next else .error (.unexpectedToken expected t)) := by
  intro n p failed
  split at failed <;> cases failed

theorem notTooDeep_complete : NotTooDeep (complete policy kept hole value) := by
  intro n p failed
  obtain ⟨_, wrong⟩ := eq_of_fill_error (Except.map_eq_error_iff.1 failed)
  cases wrong

theorem notTooDeep_beginEntry {entries : List (String × Expression)} :
    NotTooDeep (beginEntry kept hole entries t) := by
  intro n p failed
  unfold beginEntry at failed
  split at failed <;> cases failed

theorem notTooDeep_separate {separator : Separator} :
    NotTooDeep (separate policy kept t separator) := by
  cases separator with
  | binding => exact notTooDeep_take
  | element hole items | entry hole entries =>
    intro n p failed
    simp only [separate] at failed
    split at failed
    · cases failed
    · split at failed
      · exact notTooDeep_complete n p failed
      · cases failed

theorem notTooDeep_leavePath {path : List Segment} :
    NotTooDeep (leavePath policy kept hole path t) := by
  intro n p failed
  rcases Except.bind_eq_error_iff.1 failed with failed | ⟨_, _, failed⟩
  · obtain ⟨_, wrong⟩ := eq_of_fill_error failed
    cases wrong
  · exact notTooDeep_separate n p failed

theorem limited_openContainer {next : State} (opens : t.opening = 1) (le : limit ≤ higher) :
    Limited limit hole.frames.length t (openContainer limit hole t next)
      (openContainer higher hole t next) := by
  unfold openContainer
  by_cases full : limit ≤ hole.frames.length
  · rw [if_pos full]
    exact .cut rfl opens full
  · have room : ¬higher ≤ hole.frames.length := fun more => full (Nat.le_trans le more)
    rw [if_neg full, if_neg room]
    apply Limited.same rfl
    intro n p failed
    cases failed

theorem limited_beginValue (le : limit ≤ higher) :
    Limited limit hole.frames.length t (beginValue ⟨policy, limit⟩ kept hole t)
      (beginValue ⟨policy, higher⟩ kept hole t) := by
  unfold beginValue
  split
  · exact .same rfl notTooDeep_complete
  · split
    · exact .same rfl notTooDeep_complete
    · exact .same rfl (by simp [NotTooDeep])
  · exact .same rfl notTooDeep_complete
  · exact .same rfl notTooDeep_complete
  · exact .same rfl notTooDeep_complete
  · rename_i kind
    exact limited_openContainer (by rw [opening, kind]) le
  · rename_i kind
    exact limited_openContainer (by rw [opening, kind]) le
  · exact .same rfl (by simp [NotTooDeep])
  · exact .same rfl (by simp [NotTooDeep])

theorem limited_step (le : limit ≤ higher) (policy : DuplicatePolicy) (s : State) (t : Token) :
    Limited limit s.awaiting.level t (step ⟨policy, limit⟩ s t) (step ⟨policy, higher⟩ s t) := by
  obtain ⟨kept, awaiting⟩ := s
  cases awaiting with
  | bindingName | bindingColon | entryColon | callEnd | memberName =>
    exact .same rfl notTooDeep_take
  | value hole => exact limited_beginValue le
  | firstElement hole =>
    simp only [step]
    split
    · exact .same rfl notTooDeep_complete
    · have limited : Limited limit (hole.inArray []).frames.length t
          (beginValue ⟨policy, limit⟩ kept (hole.inArray []) t)
          (beginValue ⟨policy, higher⟩ kept (hole.inArray []) t) := limited_beginValue le
      exact limited
  | firstKey hole =>
    simp only [step]
    split
    · exact .same rfl notTooDeep_complete
    · exact .same rfl notTooDeep_beginEntry
  | nextKey hole entries => exact .same rfl notTooDeep_beginEntry
  | nameEnd hole path name =>
    simp only [step]
    split
    · exact .same rfl (by simp [NotTooDeep])
    · split
      · exact .same rfl (by simp [NotTooDeep])
      · exact .same rfl notTooDeep_leavePath
  | pathEnd hole path =>
    simp only [step]
    split
    · exact .same rfl (by simp [NotTooDeep])
    · exact .same rfl notTooDeep_leavePath
  | separator separator => exact .same rfl notTooDeep_separate

theorem notTooDeep_finish (policy : DuplicatePolicy) (s : State) :
    NotTooDeep (finish policy s) := by
  intro n p failed
  cases refusesEnd_of_finish failed

theorem limited_run (le : limit ≤ higher) (s : State) (ts : List Token) :
    (run ⟨policy, limit⟩ s ts = run ⟨policy, higher⟩ s ts ∧ NotTooDeep (run ⟨policy, limit⟩ s ts)) ∨
      ∃ pre t post s', ts = pre ++ t :: post ∧ run ⟨policy, limit⟩ s pre = .ok s' ∧
        run ⟨policy, limit⟩ s ts = .error (.nestingTooDeep limit t.position) ∧ t.opening = 1 ∧
        limit ≤ s'.awaiting.level := by
  -- Up to the cut both machines are in the same state, so one run is followed.
  induction ts generalizing s with
  | nil => exact .inl ⟨rfl, by simp [NotTooDeep]⟩
  | cons t ts ih =>
    rw [run_cons, run_cons]
    cases limited_step le policy s t with
    | cut met opens full =>
      exact .inr ⟨[], t, ts, s, rfl, rfl, by rw [met]; rfl, opens, full⟩
    | same equal notTooDeep =>
      rw [← equal]
      cases took : step ⟨policy, limit⟩ s t with
      | error e =>
        rw [took] at notTooDeep
        exact .inl ⟨rfl, by simpa [NotTooDeep] using notTooDeep⟩
      | ok s₁ =>
        rcases ih s₁ with same | ⟨pre, u, post, s', rfl, ran, met, opens, full⟩
        · exact .inl same
        · refine .inr ⟨t :: pre, u, post, s', rfl, ?_, met, opens, full⟩
          rw [run_cons, took, Except.ok_bind, ran]

/-- The level gets above the limit, where it has not been before. -/
def IsFirstBeyond (limit : Nat) (t : Token) (tokens : List Token) : Prop :=
  ∃ pre post, tokens = pre ++ t :: post ∧ (t.kind = .leftBracket ∨ t.kind = .leftBrace) ∧
    level (pre ++ [t]) = limit + 1 ∧ ∀ us, us <+: pre → level us ≤ limit

theorem kind_of_opening (opens : t.opening = 1) : t.kind = .leftBracket ∨ t.kind = .leftBrace := by
  unfold opening at opens
  split at opens
  · exact .inl ‹_›
  · exact .inr ‹_›
  all_goals cases opens

theorem isFirstBeyond_of_run {pre post : List Token} (ran : run rules start pre = .ok s)
    (opens : t.opening = 1) (full : rules.maxDepth ≤ s.awaiting.level) :
    IsFirstBeyond rules.maxDepth t (pre ++ t :: post) := by
  obtain ⟨same, low, within⟩ := level_of_run_start ran
  refine ⟨pre, post, rfl, kind_of_opening opens, ?_, peak_le_iff.1 low⟩
  rw [level_append, level_cons, level_nil, opens]
  omega

theorem parse_limited (le : limit ≤ higher) (policy : DuplicatePolicy) (tokens : List Token) :
    (parse ⟨policy, limit⟩ tokens = parse ⟨policy, higher⟩ tokens ∧
        NotTooDeep (parse ⟨policy, limit⟩ tokens)) ∨
      ∃ t, IsFirstBeyond limit t tokens ∧
        parse ⟨policy, limit⟩ tokens = .error (.nestingTooDeep limit t.position) := by
  unfold parse
  split
  · exact .inl ⟨rfl, by simp [NotTooDeep]⟩
  · rcases limited_run le start tokens with
      ⟨same, notTooDeep⟩ | ⟨pre, t, post, s, rfl, ran, met, opens, full⟩
    · left
      rw [← same]
      refine ⟨rfl, fun n p failed => ?_⟩
      rcases Except.bind_eq_error_iff.1 failed with failed | ⟨s, _, failed⟩
      · exact notTooDeep n p failed
      · exact notTooDeep_finish policy s n p failed
    · right
      exact ⟨t, isFirstBeyond_of_run ran opens full, by rw [met]; rfl⟩

theorem peak_le_of_parse {tokens : List Token} {bindings : List Binding}
    (accepted : parse rules tokens = .ok bindings) : peak tokens ≤ rules.maxDepth := by
  unfold parse at accepted
  split at accepted
  · rename_i empty
    rw [empty, peak]
    omega
  · obtain ⟨s, ran, _⟩ := Except.bind_eq_ok_iff.1 accepted
    exact (level_of_run_start ran).2.1

/-- With a lower limit the outcome is the same, or the first bracket beyond it is refused. -/
theorem parse_of_limit_le (le : limit ≤ higher) (policy : DuplicatePolicy) (tokens : List Token) :
    ((parse ⟨policy, limit⟩ tokens = parse ⟨policy, higher⟩ tokens ∧
        NotTooDeep (parse ⟨policy, limit⟩ tokens)) ∨
      ∃ t, IsFirstBeyond limit t tokens ∧
        parse ⟨policy, limit⟩ tokens = .error (.nestingTooDeep limit t.position)) ∧
    (∀ bindings, parse ⟨policy, higher⟩ tokens = .ok bindings →
      (parse ⟨policy, limit⟩ tokens = .ok bindings ↔ ∀ us, us <+: tokens → level us ≤ limit)) ∧
    (∀ raw, Grammar.IsBindings tokens raw →
      ((∀ us, us <+: tokens → level us ≤ limit) ↔ ∀ b ∈ raw, b.value.depth ≤ limit)) ∧
    (∀ ts value, Grammar.IsValue ts value → Grammar.Nests ts value.depth) ∧
    ∀ bindings, parse ⟨policy, limit⟩ tokens = .ok bindings →
      ∀ b ∈ bindings, b.value.depth ≤ limit := by
  have outcomes := parse_limited le policy tokens
  refine ⟨outcomes, ?_, ?_, fun _ _ => Grammar.IsValue.nests, fun _ => depth_le_of_parse⟩
  · intro bindings accepted
    constructor
    · intro acceptedLow
      exact peak_le_iff.1 (peak_le_of_parse acceptedLow)
    · intro low
      rcases outcomes with ⟨same, _⟩ | ⟨t, ⟨pre, post, rfl, _, above, _⟩, _⟩
      · rw [same, accepted]
      · have := low (pre ++ [t]) ⟨post, by simp⟩
        omega
  · intro raw isBindings
    rw [← peak_le_iff]
    exact isBindings.peak_le_iff

theorem brace_is_first_beyond :
    let tokens : List Token := [⟨.identifier, "a", ⟨1, 1, 0⟩⟩, ⟨.colon, ":", ⟨1, 2, 1⟩⟩,
      ⟨.leftBracket, "[", ⟨1, 4, 3⟩⟩, ⟨.rightBracket, "]", ⟨1, 5, 4⟩⟩, ⟨.comma, ",", ⟨1, 6, 5⟩⟩,
      ⟨.identifier, "b", ⟨1, 8, 7⟩⟩, ⟨.colon, ":", ⟨1, 9, 8⟩⟩, ⟨.leftBracket, "[", ⟨1, 11, 10⟩⟩,
      ⟨.leftBrace, "\x7b", ⟨1, 12, 11⟩⟩]
    1 ≤ 2 ∧ parse ⟨.reject, 1⟩ tokens = .error (.nestingTooDeep 1 ⟨1, 12, 11⟩) ∧
    ((parse ⟨.reject, 1⟩ tokens = parse ⟨.reject, 2⟩ tokens ∧
        NotTooDeep (parse ⟨.reject, 1⟩ tokens)) ∨
      ∃ t, IsFirstBeyond 1 t tokens ∧
        parse ⟨.reject, 1⟩ tokens = .error (.nestingTooDeep 1 t.position)) ∧
    (∀ bindings, parse ⟨.reject, 2⟩ tokens = .ok bindings →
      (parse ⟨.reject, 1⟩ tokens = .ok bindings ↔ ∀ us, us <+: tokens → level us ≤ 1)) ∧
    (∀ raw, Grammar.IsBindings tokens raw →
      ((∀ us, us <+: tokens → level us ≤ 1) ↔ ∀ b ∈ raw, b.value.depth ≤ 1)) ∧
    (∀ ts value, Grammar.IsValue ts value → Grammar.Nests ts value.depth) ∧
    ∀ bindings, parse ⟨.reject, 1⟩ tokens = .ok bindings → ∀ b ∈ bindings, b.value.depth ≤ 1 := by
  intro tokens
  have le : 1 ≤ 2 := by decide
  exact ⟨le, rfl, parse_of_limit_le le .reject tokens⟩

end Parser

end Bindlang
