import Bindlang.Proofs.Decimal.NumberGrammar
import Bindlang.Proofs.Path.Concatenation

namespace Bindlang

open NumberText Store

namespace Store

variable {s : Store} {ref : ArrayRef} {key : String} {item : Value}

theorem member_array_eq_some_iff (room : (s.items ref).length < UInt64.size) :
    s.member? (.array ref) key = some item ↔
      ∃ i, IsIndex key.toList i ∧ (s.items ref)[i]? = some item := by
  rw [member?, Option.bind_eq_some_iff]
  refine exists_congr fun i => ?_
  rw [readNatural_eq_some_iff, and_assoc]
  refine and_congr_right fun _ => and_iff_right_of_imp fun here => ?_
  exact Nat.lt_trans (List.getElem?_eq_some_iff.1 here).1 room

theorem hasMember_array_iff (room : (s.items ref).length < UInt64.size) :
    s.hasMember (.array ref) key = true ↔ ∃ i, IsIndex key.toList i ∧ i < (s.items ref).length := by
  rw [hasMember, Option.any_eq_true]
  refine exists_congr fun i => ?_
  rw [readNatural_eq_some_iff, and_assoc, decide_eq_true_eq]
  exact and_congr_right fun _ => and_iff_right_of_imp fun inside => Nat.lt_trans inside room

theorem member_array_eq_none (room : (s.items ref).length < UInt64.size)
    (noItem : ¬∃ i, IsIndex key.toList i ∧ i < (s.items ref).length) :
    s.member? (.array ref) key = none := by
  rw [← hasMember_array_iff room, hasMember_eq, Bool.not_eq_true, Option.isSome_eq_false_iff,
    Option.isNone_iff_eq_none] at noItem
  exact noItem

end Store

namespace Host

variable {σ : Type} {host : Host σ} {state later : Store × σ} {ref : ArrayRef} {root item : Value}
  {segment : Segment} {before behind : Path} {text : String} {i : Nat}

theorem read_of_cut {v : Value} (cut : Path.ofText text = before ++ segment :: behind)
    (leads : host.walk? before root state = (some v, later)) :
    host.read? (.ofPath text root) state = host.walk? (segment :: behind) v later := by
  rw [Accessor.ofPath, read?, cut, walk_append, leads]

theorem read_of_item (cut : Path.ofText text = before ++ segment :: behind)
    (leads : host.walk? before root state = (some (.array ref), later))
    (room : (later.1.items ref).length < UInt64.size) (isIndex : IsIndex segment.name.toList i)
    (here : (later.1.items ref)[i]? = some item) :
    host.read? (.ofPath text root) state =
      match if segment.invoked then host.call item later else (some item, later) with
      | (none, later) => (none, later)
      | (some next, later) => host.walk? behind next later := by
  have found := (member_array_eq_some_iff room).2 ⟨i, isIndex, here⟩
  have walked := walk_cons host segment behind (.array ref) later
  rw [follow?, found] at walked
  rw [read_of_cut cut leads]
  exact walked

theorem read_of_no_item (cut : Path.ofText text = before ++ segment :: behind)
    (leads : host.walk? before root state = (some (.array ref), later))
    (room : (later.1.items ref).length < UInt64.size)
    (noItem : ¬∃ i, IsIndex segment.name.toList i ∧ i < (later.1.items ref).length) :
    host.read? (.ofPath text root) state = (none, later) := by
  rw [read_of_cut cut leads, walk_cons, follow?, member_array_eq_none room noItem]

end Host

namespace Accessor

variable {s after : Store} {ref : ArrayRef} {root item : Value} {segment : Segment}
  {before behind : Path} {text : String} {i : Nat}

theorem read_of_item (cut : Path.ofText text = before ++ segment :: behind)
    (leads : before.walk? root s = (some (.array ref), after))
    (room : (after.items ref).length < UInt64.size) (isIndex : IsIndex segment.name.toList i)
    (here : (after.items ref)[i]? = some item) :
    (ofPath text root).read? s =
      match if segment.invoked then Store.call item after else (some item, after) with
      | (none, later) => (none, later)
      | (some next, later) => behind.walk? next later := by
  have walked : Host.ofStore.walk? before root (s, ()) = (some (.array ref), after, ()) := by
    rw [Host.walk_ofStore, Host.inStore_eq_iff, leads]
  have read := Host.read_of_item cut walked room isIndex here
  have called : (if segment.invoked then (Host.ofStore : Host Unit).call item (after, ()) else
      (some item, after, ())) =
        Host.inStore (fun s => if segment.invoked then Store.call item s else (some item, s))
          (after, ()) := by
    cases segment.invoked with
    | false => rfl
    | true => rw [Host.call_ofStore]; rfl
  simp only [called, Host.read_ofStore, Host.walk_ofStore] at read
  exact Host.inStore_eq_iff.1 (read.trans (Host.inStore_onward _ _ after ()))

theorem read_of_no_item (cut : Path.ofText text = before ++ segment :: behind)
    (leads : before.walk? root s = (some (.array ref), after))
    (room : (after.items ref).length < UInt64.size)
    (noItem : ¬∃ i, IsIndex segment.name.toList i ∧ i < (after.items ref).length) :
    (ofPath text root).read? s = (none, after) := by
  have walked : Host.ofStore.walk? before root (s, ()) = (some (.array ref), after, ()) := by
    rw [Host.walk_ofStore, Host.inStore_eq_iff, leads]
  have read := Host.read_of_no_item cut walked room noItem
  rw [Host.read_ofStore] at read
  exact Host.inStore_eq_iff.1 read

end Accessor

/-- An array has each item under its index and nothing else, and paths go on from there. -/
theorem Store.items_are_under_indices {σ : Type} (host : Host σ) :
    (∀ (s : Store) (ref : ArrayRef), (s.items ref).length < UInt64.size → ∀ key : String,
      (∀ item, s.member? (.array ref) key = some item ↔
        ∃ i, IsIndex key.toList i ∧ (s.items ref)[i]? = some item) ∧
      (s.hasMember (.array ref) key = true ↔
        ∃ i, IsIndex key.toList i ∧ i < (s.items ref).length)) ∧
    ∀ (text : String) (root : Value) (before : Path) (segment : Segment) (behind : Path),
      Path.ofText text = before ++ segment :: behind →
      (∀ s ref after, before.walk? root s = (some (.array ref), after) →
        (after.items ref).length < UInt64.size →
        (∀ i item, IsIndex segment.name.toList i → (after.items ref)[i]? = some item →
          (Accessor.ofPath text root).read? s =
            match if segment.invoked then Store.call item after else (some item, after) with
            | (none, later) => (none, later)
            | (some next, later) => behind.walk? next later) ∧
        ((¬∃ i, IsIndex segment.name.toList i ∧ i < (after.items ref).length) →
          (Accessor.ofPath text root).read? s = (none, after))) ∧
      ∀ state ref after, host.walk? before root state = (some (.array ref), after) →
        (after.1.items ref).length < UInt64.size →
        (∀ i item, IsIndex segment.name.toList i → (after.1.items ref)[i]? = some item →
          host.read? (.ofPath text root) state =
            match if segment.invoked then host.call item after else (some item, after) with
            | (none, later) => (none, later)
            | (some next, later) => host.walk? behind next later) ∧
        ((¬∃ i, IsIndex segment.name.toList i ∧ i < (after.1.items ref).length) →
          host.read? (.ofPath text root) state = (none, after)) := by
  refine ⟨fun s ref room key => ?_, fun text root before segment behind cut => ⟨?_, ?_⟩⟩
  · exact ⟨fun item => member_array_eq_some_iff room, hasMember_array_iff room⟩
  · intro s ref after leads room
    exact ⟨fun i item isIndex here => Accessor.read_of_item cut leads room isIndex here,
      Accessor.read_of_no_item cut leads room⟩
  · intro state ref after leads room
    exact ⟨fun i item isIndex here => Host.read_of_item cut leads room isIndex here,
      Host.read_of_no_item cut leads room⟩

theorem Store.signed_index_goes_on :
    let s : Store := ⟨#[[.integer 9, .function ⟨0⟩]], #[.ofList [("list", .array ⟨0⟩)]], #[.counter 5]⟩
    let later : Store := ⟨s.arrays, s.objects, #[.counter 6]⟩
    let host : Host Unit := .ofStore
    let signed := Accessor.ofPath "list.+01()" (.object ⟨0⟩)
    let negative := Accessor.ofPath "list.-1.x" (.object ⟨0⟩)
    (s.items ⟨0⟩).length < UInt64.size ∧ IsIndex "000".toList 0 ∧ IsIndex "+01".toList 1 ∧
      (¬∃ i, IsIndex "-1".toList i ∧ i < (s.items ⟨0⟩).length) ∧
      s.member? (.array ⟨0⟩) "000" = some (.integer 9) ∧
      signed.read? s = (some (.integer 5), later) ∧ negative.read? s = (none, s) ∧
      host.read? signed (s, ()) = (some (.integer 5), later, ()) ∧
      host.read? negative (s, ()) = (none, s, ()) := by
  intro s later host signed negative
  have room : (s.items ⟨0⟩).length < UInt64.size := by decide
  have zeros : IsIndex "000".toList 0 :=
    @IsIndex.unsigned ['0', '0', '0'] ⟨by decide, List.all_eq_true.1 rfl⟩
  have isIndex : IsIndex "+01".toList 1 :=
    @IsIndex.signed ['0', '1'] ⟨by decide, List.all_eq_true.1 rfl⟩
  have noItem : ¬∃ i, IsIndex "-1".toList i ∧ i < (s.items ⟨0⟩).length := by
    rintro ⟨i, isIndex, _⟩
    cases isIndex with
    | unsigned areDigits => exact absurd (areDigits.2 '-' List.mem_cons_self) (by decide)
  obtain ⟨keys, walks⟩ := items_are_under_indices host
  have cut : Path.ofText "list.+01()" = [⟨"list", false⟩] ++ ⟨"+01", true⟩ :: [] := by decide +kernel
  have cut' : Path.ofText "list.-1.x" = [⟨"list", false⟩] ++ ⟨"-1", false⟩ :: [⟨"x", false⟩] := by
    decide +kernel
  obtain ⟨inStore, inHost⟩ := walks _ (.object ⟨0⟩) _ _ _ cut
  obtain ⟨inStore', inHost'⟩ := walks _ (.object ⟨0⟩) _ _ _ cut'
  exact ⟨room, zeros, isIndex, noItem, ((keys s ⟨0⟩ room "000").1 _).2 ⟨0, zeros, rfl⟩,
    (inStore s ⟨0⟩ s rfl room).1 1 _ isIndex rfl, (inStore' s ⟨0⟩ s rfl room).2 noItem,
    (inHost (s, ()) ⟨0⟩ (s, ()) rfl room).1 1 _ isIndex rfl,
    (inHost' (s, ()) ⟨0⟩ (s, ()) rfl room).2 noItem⟩

/-- A plus sign is no digit, but an item is found behind it. -/
theorem Store.plus_sign_is_taken :
    let s := (newArray [.integer 9, .integer 8] empty).2
    ((Accessor.ofPath "+1" (.array ⟨0⟩)).read? s).1 = some (.integer 8) ∧
      s.hasMember (.array ⟨0⟩) "+1" = true ∧ ¬Digits "+1".toList ∧
      ¬∀ key item, s.member? (.array ⟨0⟩) key = some item ↔
        Digits key.toList ∧
          (s.items ⟨0⟩)[Nat.ofDigitChars 10 key.toList 0]? = some item := by
  intro s
  have found : s.member? (.array ⟨0⟩) "+1" = some (.integer 8) := by decide +kernel
  have notDigits : ¬Digits "+1".toList := fun areDigits =>
    absurd (areDigits.2 '+' List.mem_cons_self) (by decide)
  exact ⟨by decide +kernel, by decide +kernel, notDigits,
    fun each => notDigits ((each "+1" _).1 found).1⟩

end Bindlang
