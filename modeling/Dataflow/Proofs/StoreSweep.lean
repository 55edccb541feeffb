import Dataflow.Proofs.IdleStore

/-! Release and sweep, on any store. The counts of a store may be anything, and a release may
list an id any number of times, live or not. What a release and the sweep after it leave of a
cell depends on its count and on how often it is listed, and on nothing else. So the order of
the release does not matter, and a second sweep finds nothing. -/
namespace Dataflow

namespace Store

variable {store : Store} {ids others : List CellId} {id : CellId}

theorem get?_eq_none_iff : store.get? id = none ↔ store.contains id = false := by
  simp [contains, CellMap.contains, get?]

/-! ### Releasing -/

/-- A release changes cells only, and no counter. -/
theorem release_counters (store : Store) (ids : List CellId) :
    store.release ids = { store with cells := (store.release ids).cells } := by
  induction ids generalizing store with
  | nil => rfl
  | cons first rest ih =>
    rw [release]
    unfold decref update
    split
    · rename_i dropped done
      split at done
      · cases done
        rw [ih]
      · cases done
    · rw [ih]

/-- A release does not depend on the order in which it lists the cells. -/
theorem release_perm (store : Store) (same : ids.Perm others) :
    store.release ids = store.release others := by
  rw [release_counters store ids, release_counters store others]
  congr 1
  apply CellMap.ext_get?
  intro id
  have left := get?_release store ids id
  have right := get?_release store others id
  rw [same.count_eq] at left
  exact left.trans right.symm

/-! ### Sweeping -/

/-- A sweep removes the cells that nothing refers to. -/
theorem mem_garbage :
    id ∈ store.garbage ↔ ∃ cell, store.get? id = some cell ∧ cell.refs = 0 := by
  simp only [garbage, CellMap.mem_ids, CellMap.get?_filter, Option.filter_eq_some_iff, get?,
    beq_iff_eq]

/-- The sweep reports exactly the ids that it removes. -/
theorem mem_garbage_iff_removed :
    id ∈ store.garbage ↔ store.contains id = true ∧ store.collect.contains id = false := by
  rw [mem_garbage, contains_iff, ← get?_eq_none_iff, get?_collect, Option.filter_eq_none_iff]
  constructor
  · rintro ⟨cell, held, zero⟩
    refine ⟨⟨cell, held⟩, fun other again => ?_⟩
    cases held.symm.trans again
    simp [zero]
  · rintro ⟨⟨cell, held⟩, removed⟩
    exact ⟨cell, held, by simpa using removed cell held⟩

private theorem lowered_toNat (refs : UInt64) (times : Nat) :
    (UInt64.ofNat (refs.toNat - times)).toNat = refs.toNat - times :=
  UInt64.toNat_ofNat_of_lt' (Nat.lt_of_le_of_lt (Nat.sub_le _ _) refs.toNat_lt)

/-- What a release and the sweep after it leave of a cell: nothing, if the cell is listed as
often as it is referenced or more often, and else the cell with fewer references. -/
theorem get?_retire {cell : Cell} (ids : List CellId) (held : store.get? id = some cell) :
    ((store.release ids).collect.get? id = none ↔ cell.refs.toNat ≤ ids.count id) ∧
      ∀ left, (store.release ids).collect.get? id = some left →
        left.bound = cell.bound ∧ left.value = cell.value ∧
          left.refs.toNat + ids.count id = cell.refs.toNat := by
  rw [get?_collect, get?_release, held]
  by_cases few : cell.refs.toNat ≤ ids.count id
  · simp [few]
  · have lowered := lowered_toNat cell.refs (ids.count id)
    have referenced : UInt64.ofNat (cell.refs.toNat - ids.count id) ≠ 0 := by
      intro zero
      rw [zero, UInt64.toNat_zero] at lowered
      omega
    rw [Option.map_some, Option.filter_some_pos (by simpa using referenced)]
    refine ⟨iff_of_false (by simp) few, ?_⟩
    rintro left ⟨⟩
    refine ⟨rfl, rfl, ?_⟩
    rw [lowered]
    omega

theorem get?_retire_none (ids : List CellId) (absent : store.get? id = none) :
    (store.release ids).collect.get? id = none := by
  rw [get?_collect, get?_release, absent]
  rfl

/-- A referenced cell that is not listed stays as it is. -/
theorem get?_retire_unlisted (outside : id ∉ ids)
    (referenced : ∀ cell, store.get? id = some cell → cell.refs ≠ 0) :
    (store.release ids).collect.get? id = store.get? id := by
  rw [get?_collect, get?_release, List.count_eq_zero.mpr outside]
  cases held : store.get? id with
  | none => rfl
  | some cell => simpa using referenced cell held

/-- A store in which every cell is referenced has nothing to sweep. -/
theorem collect_referenced (referenced : store.Referenced) :
    store.garbage = [] ∧ store.collect = { store with collections := store.collections + 1 } := by
  have nothing : store.garbage = [] := by
    apply List.eq_nil_iff_forall_not_mem.mpr
    intro id member
    obtain ⟨cell, held, zero⟩ := mem_garbage.mp member
    exact referenced id cell held zero
  have same : store.collect.cells = store.cells := by
    apply CellMap.ext_get?
    intro id
    apply (get?_collect store id).trans
    cases held : store.get? id with
    | none => exact held.symm
    | some cell =>
      rw [Option.filter_some_pos (by simpa using referenced id cell held)]
      exact held.symm
  refine ⟨nothing, ?_⟩
  rw [collect, nothing] at same ⊢
  simpa using same

/-- A release and the sweep after it are exact. A cell that is listed as often as it is
referenced, or more often, is removed; any other keeps its value and loses one reference for
each time it is listed. The sweep reports the removed ids in ascending order and counts them.
The order of the release does not matter, and a second sweep removes nothing. -/
theorem release_then_sweep (store : Store) (ids : List CellId) :
    let released := store.release ids
    let swept := released.collect
    (∀ id cell, store.get? id = some cell →
      (swept.get? id = none ↔ cell.refs.toNat ≤ ids.count id) ∧
      ∀ left, swept.get? id = some left → left.bound = cell.bound ∧ left.value = cell.value ∧
        left.refs.toNat + ids.count id = cell.refs.toNat) ∧
    (∀ id, store.get? id = none → swept.get? id = none) ∧
    (∀ id, id ∈ released.garbage ↔ store.contains id = true ∧ swept.contains id = false) ∧
    released.garbage.Pairwise (· < ·) ∧
    swept.collections = store.collections + 1 ∧
    swept.collected = store.collected + .ofNat released.garbage.length ∧
    swept.allocations = store.allocations ∧
    (∀ others, ids.Perm others → (store.release others).garbage = released.garbage ∧
      (store.release others).collect = swept) ∧
    swept.garbage = [] ∧ swept.collect = { swept with collections := swept.collections + 1 } := by
  intro released swept
  have counters := release_counters store ids
  have kept : store.SameIds released := same_ids_of_map (get?_release store ids)
  refine ⟨fun id cell held => ?_, fun id absent => ?_, fun id => ?_,
    CellMap.ids_ascending _, ?_, ?_, ?_, fun others same => ?_,
    collect_referenced (referenced_collect released)⟩
  · exact get?_retire ids held
  · exact get?_retire_none ids absent
  · rw [mem_garbage_iff_removed, kept id]
  · exact congrArg (·.collections + 1) counters
  · exact congrArg (·.collected + .ofNat released.garbage.length) counters
  · exact congrArg (·.allocations) counters
  · rw [← release_perm store same]
    exact ⟨rfl, rfl⟩

/-- A cell that nothing refers to, next to three that are referenced. -/
private def sweepDemo : Store :=
  ⟨.ofList [(1, ⟨true, 7, 2⟩), (2, ⟨false, 0, 1⟩), (3, ⟨true, 5, 0⟩), (9, ⟨true, 1, 3⟩)], 9, 4, 5⟩

/-- One cell is listed once too often, one not often enough, and one id is not live. -/
theorem release_then_sweep_clamped :
    let released := sweepDemo.release [2, 7, 1, 2]
    [2, 7, 1, 2].Perm [1, 2, 2, (7 : CellId)] ∧
      sweepDemo.get? 2 = some ⟨false, 0, 1⟩ ∧ released.collect.get? 2 = none ∧
      released.garbage = [2, 3] ∧ released.collect.get? 1 = some ⟨true, 7, 1⟩ ∧
      (sweepDemo.release [1, 2, 2, 7]).collect = released.collect := by
  have reordered : [2, 7, 1, 2].Perm [1, 2, 2, (7 : CellId)] := by decide
  obtain ⟨cells, -, -, -, -, -, -, order, -⟩ := release_then_sweep sweepDemo [2, 7, 1, 2]
  exact ⟨reordered, rfl, (cells 2 ⟨false, 0, 1⟩ rfl).1.mpr (by decide), rfl, rfl,
    (order _ reordered).2⟩

end Store

end Dataflow
