import Mathlib.Data.List.Induction
import Dataflow.Proofs.StoreSweep

/-! A store under any sequence of operations, with whatever arguments. Nothing is assumed about
who calls: ids may never have been given out, counts may be driven to zero and beyond, and calls
that fault go on from the store they left. What holds then is what no operation can break. Ids
start again below when the highest cells are swept, so the number of cells ever allocated bounds
the live ids; and it is this bound that keeps a new id off the end of a word. -/
namespace Dataflow.Store

/-! ### Operations -/

inductive Operation where
  | allocate
  | bind (id : CellId) (value : Value)
  | incref (id : CellId)
  | decref (id : CellId)
  | release (ids : List CellId)
  | collect
deriving DecidableEq

/-- What an operation returns. -/
inductive Reply where
  | allocated (id : CellId)
  | done
  | fault (fault : Fault)
  | removed (ids : List CellId)
deriving DecidableEq

/-- The reply to a change of the store, and the store to go on with. -/
def settle (store : Store) : Except Fault Store → Reply × Store
  | .ok after => (.done, after)
  | .error fault => (.fault fault, store)

def apply (store : Store) : Operation → Reply × Store
  | .allocate => (.allocated store.freshId, store.allocate)
  | .bind id value => store.settle (store.bind id value)
  | .incref id => store.settle (store.incref id)
  | .decref id => store.settle (store.decref id)
  | .release ids => (.done, store.release ids)
  | .collect => (.removed store.garbage, store.collect)

/-- The store after some operations on an empty one. -/
def ofOperations (operations : List Operation) : Store :=
  operations.foldl (fun store operation => (store.apply operation).2) empty

variable {store after : Store} {id : CellId}

theorem ofOperations_concat (before : List Operation) (operation : Operation) :
    ofOperations (before ++ [operation]) = ((ofOperations before).apply operation).2 := by
  rw [ofOperations, List.foldl_append, ofOperations]
  rfl

/-! ### What one operation can do -/

/-- The same cells are live, as many as before, and those that were bound still are. -/
structure Keeps (store after : Store) : Prop where
  ids : store.SameIds after
  counts : store.SameCounts after
  bound : ∀ id cell, store.get? id = some cell → cell.bound = true →
    ∃ left, after.get? id = some left ∧ left.bound = true

theorem keeps_refl (store : Store) : store.Keeps store :=
  ⟨fun _ => rfl, sameCounts_refl store, fun _ cell held bound => ⟨cell, held, bound⟩⟩

/-- A change of each cell that unbinds none keeps the store. -/
theorem keeps_of_map {change : CellId → Cell → Cell} (counts : store.SameCounts after)
    (mapped : ∀ id, after.get? id = (store.get? id).map (change id))
    (binds : ∀ id cell, cell.bound = true → (change id cell).bound = true) :
    store.Keeps after where
  ids := same_ids_of_map mapped
  counts := counts
  bound id cell held bound :=
    ⟨change id cell, by rw [mapped, held, Option.map_some], binds id cell bound⟩

theorem settle_keeps {change : Cell → Cell}
    (binds : ∀ cell, cell.bound = true → (change cell).bound = true) :
    store.Keeps (store.settle (store.update id change)).2 := by
  cases updated : store.update id change with
  | error fault => exact keeps_refl store
  | ok after =>
    refine keeps_of_map (update_sameCounts updated) (update_ok updated).2 ?_
    intro other cell bound
    split
    · exact binds cell bound
    · exact bound

/-- Allocation and sweeps apart, no operation makes or removes a cell or unbinds one. -/
theorem apply_keeps (store : Store) {operation : Operation} (notAllocate : operation ≠ .allocate)
    (notCollect : operation ≠ .collect) : store.Keeps (store.apply operation).2 := by
  cases operation with
  | allocate => exact absurd rfl notAllocate
  | bind id value => exact settle_keeps fun _ _ => rfl
  | incref id => exact settle_keeps fun _ bound => bound
  | decref id => exact settle_keeps fun _ bound => bound
  | release ids =>
    exact keeps_of_map (release_sameCounts store ids) (get?_release store ids) fun _ _ bound =>
      bound
  | collect => exact absurd rfl notCollect

theorem settle_fault {result : Except Fault Store} {fault : Fault}
    (failed : (store.settle result).1 = .fault fault) : (store.settle result).2 = store := by
  cases result with
  | error fault => rfl
  | ok after => cases failed

/-- An operation that faults leaves the store as it was. -/
theorem apply_fault {operation : Operation} {fault : Fault}
    (failed : (store.apply operation).1 = .fault fault) : (store.apply operation).2 = store := by
  cases operation with
  | allocate => cases failed
  | bind id value => exact settle_fault failed
  | incref id => exact settle_fault failed
  | decref id => exact settle_fault failed
  | release ids => cases failed
  | collect => cases failed

/-! ### Ids and counters -/

/-- Live ids lie between one and the number of allocations, and the cells allocated are those
that are live and those that were collected. -/
structure Tallied (store : Store) : Prop where
  ids : ∀ id, store.contains id = true → 1 ≤ id.toNat ∧ id.toNat ≤ store.allocations.toNat
  cells : store.size + store.collected.toNat = store.allocations.toNat

theorem tallied_empty : Tallied empty where
  ids id live := by cases live
  cells := rfl

theorem Keeps.tallied (keeps : store.Keeps after) (tallied : store.Tallied) : after.Tallied where
  ids id live := by
    rw [keeps.counts.allocations]
    exact tallied.ids id ((keeps.ids id).symm.trans live)
  cells := by
    rw [keeps.counts.size, keeps.counts.collected, keeps.counts.allocations]
    exact tallied.cells

/-- What the bound on ids gives while one more allocation can be counted. -/
theorem Tallied.room (tallied : store.Tallied)
    (few : store.allocations.toNat + 1 < UInt64.size) :
    ∀ id, store.contains id = true → id.toNat + 1 < UInt64.size := by
  intro id live
  have bound := (tallied.ids id live).2
  omega

theorem allocations_allocate (few : store.allocations.toNat + 1 < UInt64.size) :
    store.allocate.allocations.toNat = store.allocations.toNat + 1 := by
  show (store.allocations + 1).toNat = _
  rw [UInt64.toNat_add]
  exact Nat.mod_eq_of_lt few

theorem one_le_freshId
    (room : ∀ id, store.contains id = true → id.toNat + 1 < UInt64.size) :
    1 ≤ store.freshId.toNat := by
  cases ends : store.cells.lastId? with
  | none =>
    have first : store.freshId = 1 := by simp [freshId, ends]
    rw [first]
    exact Nat.le_refl 1
  | some last =>
    obtain ⟨cell, held⟩ := CellMap.lastId_held ends
    have above := lt_freshId room (contains_of_get? held)
    exact Nat.lt_of_le_of_lt (Nat.zero_le _) (UInt64.lt_iff_toNat_lt.mp above)

theorem contains_allocate : store.allocate.contains id = true →
    id = store.freshId ∨ store.contains id = true := by
  intro live
  obtain ⟨cell, held⟩ := contains_iff.mp live
  rw [get?_allocate] at held
  split at held
  · rename_i fresh
    exact .inl fresh
  · exact .inr (contains_of_get? held)

theorem tallied_allocate (tallied : store.Tallied)
    (few : store.allocations.toNat + 1 < UInt64.size) : store.allocate.Tallied where
  ids id live := by
    rw [allocations_allocate few]
    rcases contains_allocate live with rfl | old
    · exact ⟨one_le_freshId (tallied.room few), freshId_le fun id live => (tallied.ids id live).2⟩
    · have bounds := tallied.ids id old
      omega
  cells := by
    have cells := tallied.cells
    rw [allocations_allocate few, size_allocate (freshId_not_live (tallied.room few))]
    show store.size + 1 + store.collected.toNat = _
    omega

theorem tallied_collect (tallied : store.Tallied) : store.collect.Tallied where
  ids id live := by
    obtain ⟨cell, held⟩ := contains_iff.mp live
    rw [get?_collect] at held
    exact tallied.ids id (contains_of_get? (Option.filter_eq_some_iff.mp held).1)
  cells := by
    have cells := tallied.cells
    have swept := size_collect store
    have bound := store.allocations.toNat_lt_size
    have counted : store.collect.collected.toNat =
        store.collected.toNat + store.garbage.length := by
      show (store.collected + .ofNat store.garbage.length).toNat = _
      rw [UInt64.toNat_add, UInt64.toNat_ofNat_of_lt' (by omega)]
      exact Nat.mod_eq_of_lt
        (show store.collected.toNat + store.garbage.length < UInt64.size by omega)
    rw [counted]
    show _ = store.allocations.toNat
    omega

/-- Along any sequence of operations that does not exhaust the counter, cells and ids stay
tallied, and the counter counts the allocations. -/
theorem ofOperations_tallied {operations : List Operation}
    (few : operations.count .allocate < UInt64.size) :
    (ofOperations operations).Tallied ∧
      (ofOperations operations).allocations.toNat = operations.count .allocate := by
  induction operations using List.reverseRecOn with
  | nil => exact ⟨tallied_empty, rfl⟩
  | append_singleton before operation ih =>
    rw [List.count_append] at few ⊢
    obtain ⟨tallied, counted⟩ := ih (by omega)
    rw [ofOperations_concat]
    by_cases allocates : operation = .allocate
    · subst allocates
      rw [List.count_singleton_self] at few ⊢
      have room : (ofOperations before).allocations.toNat + 1 < UInt64.size := by omega
      exact ⟨tallied_allocate tallied room, by rw [← counted]; exact allocations_allocate room⟩
    · rw [List.count_singleton, if_neg (by simpa using allocates), Nat.add_zero, ← counted]
      by_cases collects : operation = .collect
      · subst collects
        exact ⟨tallied_collect tallied, rfl⟩
      · have keeps := apply_keeps (ofOperations before) allocates collects
        exact ⟨keeps.tallied tallied, by rw [keeps.counts.allocations]⟩

/-! ### Bound cells -/

/-- One operation leaves a bound cell bound, unless it is the sweep that removes the cell. -/
theorem apply_bound (tallied : store.Tallied) {operation : Operation}
    (few : operation = .allocate → store.allocations.toNat + 1 < UInt64.size) {cell : Cell}
    (held : store.get? id = some cell) (bound : cell.bound = true) :
    (∃ left, (store.apply operation).2.get? id = some left ∧ left.bound = true) ∨
      operation = .collect ∧ id ∈ store.garbage := by
  by_cases allocates : operation = .allocate
  · subst allocates
    -- A new cell replaces no other, since its id is not in use.
    have new := freshId_not_live (tallied.room (few rfl))
    have other : id ≠ store.freshId := by
      rintro rfl
      rw [contains_of_get? held] at new
      cases new
    exact .inl ⟨cell, (get?_allocate store id).trans ((if_neg other).trans held), bound⟩
  by_cases collects : operation = .collect
  · subst collects
    by_cases unreferenced : cell.refs = 0
    · exact .inr ⟨rfl, mem_garbage.mpr ⟨cell, held, unreferenced⟩⟩
    · refine .inl ⟨cell, ?_, bound⟩
      show store.collect.get? id = some cell
      rw [get?_collect, held, Option.filter_some_pos (by simpa using unreferenced)]
  · exact .inl ((apply_keeps store allocates collects).bound id cell held bound)

/-- A bound cell is bound for as long as no sweep removes it. -/
theorem ofOperations_bound {before later : List Operation}
    (few : (before ++ later).count .allocate < UInt64.size) {cell : Cell}
    (held : (ofOperations before).get? id = some cell) (bound : cell.bound = true) :
    (∃ left, (ofOperations (before ++ later)).get? id = some left ∧ left.bound = true) ∨
      ∃ first rest, later = first ++ .collect :: rest ∧
        id ∈ (ofOperations (before ++ first)).garbage := by
  induction later using List.reverseRecOn with
  | nil =>
    rw [List.append_nil]
    exact .inl ⟨cell, held, bound⟩
  | append_singleton middle operation ih =>
    rw [← List.append_assoc, List.count_append] at few
    have fewer := Nat.lt_of_le_of_lt (Nat.le_add_right _ _) few
    obtain ⟨tallied, counted⟩ := ofOperations_tallied fewer
    rcases ih fewer with
      ⟨left, still, stays⟩ | ⟨first, rest, split, removed⟩
    · have room : operation = .allocate →
          (ofOperations (before ++ middle)).allocations.toNat + 1 < UInt64.size := by
        rintro rfl
        rw [List.count_singleton_self] at few
        rwa [counted]
      rw [← List.append_assoc, ofOperations_concat]
      rcases apply_bound tallied room still stays with kept | ⟨rfl, removed⟩
      · exact .inl kept
      · exact .inr ⟨middle, [], rfl, removed⟩
    · exact .inr ⟨first, rest ++ [operation], by rw [split]; simp, removed⟩

/-- What holds of a store under any use, as long as the allocations can be counted. Live ids lie
between one and the number of allocations, and the live cells are those allocated and not yet
collected. Each allocation returns an id above all that are live and changes no other cell; an
operation that faults changes nothing; and a bound cell is bound until a sweep removes it. -/
theorem store_stays_sound (operations : List Operation)
    (few : operations.count .allocate < UInt64.size) :
    let store := ofOperations operations
    (∀ id, store.contains id = true → 1 ≤ id.toNat ∧ id.toNat ≤ store.allocations.toNat) ∧
    store.allocations.toNat = operations.count .allocate ∧
    store.collected ≤ store.allocations ∧
    store.size = store.allocations.toNat - store.collected.toNat ∧
    (∀ before operation later, operations = before ++ operation :: later →
      let held := ofOperations before
      let next := ofOperations (before ++ [operation])
      (operation = .allocate → ∃ new, (held.apply operation).1 = .allocated new ∧
        (∀ id, held.contains id = true → id < new) ∧
        next.get? new = some .fresh ∧ ∀ id, id ≠ new → next.get? id = held.get? id) ∧
      (∀ fault, (held.apply operation).1 = .fault fault → next = held)) ∧
    ∀ before later, operations = before ++ later → ∀ id cell,
      (ofOperations before).get? id = some cell → cell.bound = true →
      (∃ left, store.get? id = some left ∧ left.bound = true) ∨
        ∃ first rest, later = first ++ .collect :: rest ∧
          id ∈ (ofOperations (before ++ first)).garbage := by
  intro store
  obtain ⟨tallied, counted⟩ := ofOperations_tallied few
  have cells : store.size + store.collected.toNat = store.allocations.toNat := tallied.cells
  refine ⟨tallied.ids, counted, UInt64.le_iff_toNat_le.mpr (by omega), by omega, ?_, ?_⟩
  · rintro before operation later rfl held next
    have next_eq : next = (held.apply operation).2 := ofOperations_concat before operation
    rw [next_eq]
    refine ⟨?_, fun fault failed => apply_fault failed⟩
    rintro rfl
    rw [List.count_append, List.count_cons_self] at few
    obtain ⟨earlier, number⟩ := @ofOperations_tallied before (by omega)
    have room := earlier.room (by omega)
    refine ⟨held.freshId, rfl, fun id live => lt_freshId room live, ?_, fun id other => ?_⟩
    · exact (get?_allocate held _).trans (if_pos rfl)
    · exact (get?_allocate held id).trans (if_neg other)
  · rintro before later rfl id cell held bound
    exact ofOperations_bound few held bound

private def useDemo : List Operation :=
  [.allocate, .allocate, .bind 1 5, .incref 1, .bind 9 7, .collect, .allocate, .release [1, 1],
    .collect]

/-- An id that was never given out faults, the id of a swept cell comes back, and a bound cell
is lost to a sweep after it was released once too often. -/
theorem store_stays_sound_reuse :
    useDemo.count .allocate < UInt64.size ∧
    ofOperations (useDemo.take 5) = ofOperations (useDemo.take 4) ∧
    (ofOperations (useDemo.take 7)).get? 2 = some .fresh ∧
    ∃ first rest, useDemo.drop 3 = first ++ .collect :: rest ∧
      1 ∈ (ofOperations (useDemo.take 3 ++ first)).garbage := by
  have few : useDemo.count .allocate < UInt64.size := by decide
  obtain ⟨-, -, -, -, steps, bound⟩ := store_stays_sound useDemo few
  have faults := (steps (useDemo.take 4) (.bind 9 7) (useDemo.drop 5) rfl).2 _ rfl
  obtain ⟨new, returned, -, fresh, -⟩ :=
    (steps (useDemo.take 6) .allocate (useDemo.drop 7) rfl).1 rfl
  cases returned
  refine ⟨few, faults, fresh, ?_⟩
  rcases bound (useDemo.take 3) (useDemo.drop 3) rfl 1 ⟨true, 5, 0⟩ rfl rfl with
    ⟨left, held, -⟩ | removed
  · have gone : (ofOperations useDemo).get? 1 = none := rfl
    cases gone.symm.trans held
  · exact removed

end Dataflow.Store
