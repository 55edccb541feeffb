import Dataflow.Engine.Journal
import Dataflow.Proofs.StoreContents

/-! A store is balanced against a list of ids when every count is the number of
times its cell is listed. The list says who owns the references; the store only
counts them. Each operation moves the list in one way, so a proof about a whole
run has to follow the list and never the counters. -/
namespace Dataflow.Store

/-- The counts are exactly those of `owed`, and every cell in `owed` is live. -/
structure Balanced (store : Store) (owed : List CellId) : Prop where
  live : ∀ id ∈ owed, store.contains id = true
  exact : ∀ id cell, store.get? id = some cell → cell.refs.toNat = owed.count id

variable {store after : Store} {owed : List CellId} {id : CellId}

theorem balanced_empty : Store.empty.Balanced [] where
  live id member := by cases member
  exact id cell held := by simp [Store.empty, get?] at held

theorem balanced_perm {other : List CellId} (balanced : store.Balanced owed)
    (same : owed.Perm other) : store.Balanced other where
  live id member := balanced.live id (same.mem_iff.mpr member)
  exact id cell held := (balanced.exact id cell held).trans (same.count_eq id)

/-- A change that keeps ids and counts keeps the balance. -/
theorem balanced_of_map {change : CellId → Cell → Cell} (balanced : store.Balanced owed)
    (mapped : ∀ id, after.get? id = (store.get? id).map (change id))
    (kept : ∀ id cell, (change id cell).refs = cell.refs) : after.Balanced owed where
  live id member := (same_ids_of_map mapped id).trans (balanced.live id member)
  exact id cell held := by
    rw [mapped id] at held
    obtain ⟨prior, before, rfl⟩ := Option.map_eq_some_iff.mp held
    rw [kept]
    exact balanced.exact id prior before

theorem balanced_bind (balanced : store.Balanced owed) (live : store.contains id = true)
    (value : Value) :
    ∃ after, store.bind id value = .ok after ∧ after.Balanced owed ∧ store.SameIds after := by
  obtain ⟨after, done, mapped⟩ := bind_live live value
  refine ⟨after, done, balanced_of_map balanced mapped ?_, same_ids_of_map mapped⟩
  intro other cell
  split <;> rfl

theorem balanced_bindAll {bindings : List (CellId × Value)} (balanced : store.Balanced owed)
    (live : ∀ binding ∈ bindings, store.contains binding.1 = true) :
    ∃ after, store.bindAll bindings = .ok after ∧ after.Balanced owed ∧
      store.SameIds after := by
  obtain ⟨after, done, mapped⟩ := bindAll_live bindings live
  exact ⟨after, done, balanced_of_map balanced mapped fun id cell => rebound_refs bindings id cell,
    same_ids_of_map mapped⟩

/-- New references are owed on top of the old ones. Counters must have room for
all of them, or they would wrap. -/
theorem balanced_increfAll (ids : List CellId) (balanced : store.Balanced owed)
    (live : ∀ id ∈ ids, store.contains id = true)
    (room : owed.length + ids.length < UInt64.size) :
    ∃ after, store.increfAll ids = .ok after ∧ after.Balanced (ids ++ owed) ∧
      store.SameIds after := by
  obtain ⟨after, done, mapped⟩ := increfAll_live ids live
  have kept : store.SameIds after := same_ids_of_map mapped
  refine ⟨after, done, ⟨fun id member => ?_, fun id cell held => ?_⟩, kept⟩
  · rw [kept id]
    rcases List.mem_append.mp member with new | old
    · exact live id new
    · exact balanced.live id old
  · rw [mapped id] at held
    obtain ⟨prior, before, rfl⟩ := Option.map_eq_some_iff.mp held
    have counted := balanced.exact id prior before
    have oldRoom : owed.count id ≤ owed.length := List.count_le_length
    have newRoom : ids.count id ≤ ids.length := List.count_le_length
    have fits : ids.count id < UInt64.size := by omega
    rw [List.count_append, UInt64.toNat_add, UInt64.toNat_ofNat_of_lt' fits, counted,
      Nat.mod_eq_of_lt (show owed.count id + ids.count id < UInt64.size by omega)]
    exact Nat.add_comm _ _

theorem balanced_incref (balanced : store.Balanced owed) (live : store.contains id = true)
    (room : owed.length + 1 < UInt64.size) :
    ∃ after, store.incref id = .ok after ∧ after.Balanced (id :: owed) ∧
      store.SameIds after := by
  obtain ⟨after, done, rest⟩ := balanced_increfAll [id] balanced (by simpa using live) room
  refine ⟨after, ?_, rest⟩
  rw [increfAll, applyAll] at done
  cases single : store.incref id with
  | error fault => simp [single] at done
  | ok changed => simpa [single, applyAll] using done

/-- A fresh cell owes nothing and is owed nothing. -/
theorem balanced_allocate (balanced : store.Balanced owed)
    (new : store.contains store.freshId = false) : store.allocate.Balanced owed where
  live id member := by
    have held := balanced.live id member
    have different : id ≠ store.freshId := fun same => by simp [same, new] at held
    obtain ⟨cell, found⟩ := contains_iff.mp held
    exact contains_of_get? (by rw [get?_allocate, if_neg different]; exact found)
  exact id cell held := by
    rw [get?_allocate] at held
    split at held
    · rename_i same
      have unlisted : id ∉ owed := fun member => by
        simp [same ▸ balanced.live id member] at new
      cases held
      simpa [Cell.fresh] using (List.count_eq_zero.mpr unlisted).symm
    · exact balanced.exact id cell held

/-- Releasing what is owed settles exactly that part of the debt. -/
theorem balanced_release (ids : List CellId) (balanced : store.Balanced (ids ++ owed)) :
    (store.release ids).Balanced owed := by
  have mapped := get?_release store ids
  refine ⟨fun id member => ?_, fun id cell held => ?_⟩
  · rw [same_ids_of_map mapped id]
    exact balanced.live id (List.mem_append.mpr (.inr member))
  · rw [mapped id] at held
    obtain ⟨prior, before, rfl⟩ := Option.map_eq_some_iff.mp held
    have counted := balanced.exact id prior before
    have bound := prior.refs.toNat_lt
    rw [List.count_append] at counted
    have fits : prior.refs.toNat - ids.count id < UInt64.size := by
      exact Nat.lt_of_le_of_lt (Nat.sub_le _ _) bound
    rw [UInt64.toNat_ofNat_of_lt' fits]
    omega

/-- After a sweep the live cells are exactly those that are owed. -/
theorem balanced_collect (balanced : store.Balanced owed) :
    store.collect.Balanced owed ∧ ∀ id, store.collect.contains id = true ↔ id ∈ owed := by
  have survives : ∀ id ∈ owed, ∃ cell, store.collect.get? id = some cell := by
    intro id member
    obtain ⟨cell, held⟩ := contains_iff.mp (balanced.live id member)
    have counted := balanced.exact id cell held
    have positive : 0 < owed.count id := List.count_pos_iff.mpr member
    have referenced : cell.refs ≠ 0 := fun zero => by
      rw [zero] at counted
      simp at counted
      omega
    exact ⟨cell, by rw [get?_collect, held]; simp [Option.filter, referenced]⟩
  have original : ∀ id cell, store.collect.get? id = some cell →
      store.get? id = some cell ∧ cell.refs ≠ 0 := by
    intro id cell held
    rw [get?_collect, Option.filter_eq_some_iff] at held
    exact ⟨held.1, by simpa using held.2⟩
  refine ⟨⟨fun id member => contains_iff.mpr (survives id member), fun id cell held =>
    balanced.exact id cell (original id cell held).1⟩, fun id => ⟨fun live => ?_, fun member =>
    contains_iff.mpr (survives id member)⟩⟩
  obtain ⟨cell, held⟩ := contains_iff.mp live
  obtain ⟨before, referenced⟩ := original id cell held
  have counted := balanced.exact id cell before
  have nonzero : cell.refs.toNat ≠ 0 := fun zero => referenced (UInt64.toNat_inj.mp zero)
  exact List.count_pos_iff.mp (by omega)

/-- A release of what is owed has nothing to report: every listed cell is live
and referenced when its turn comes. -/
theorem releaseJournal_nil {ids : List CellId} (balanced : store.Balanced (ids ++ owed)) :
    store.releaseJournal ids = [] := by
  induction ids generalizing store with
  | nil => rfl
  | cons id rest ih =>
    have live : store.contains id = true := balanced.live id (by simp)
    obtain ⟨cell, held⟩ := contains_iff.mp live
    have counted := balanced.exact id cell held
    have referenced : cell.refs ≠ 0 := fun zero => by
      rw [zero] at counted
      simp at counted
    obtain ⟨dropped, done, -⟩ := decref_live live
    have single : dropped.Balanced (rest ++ owed) := by
      have released : (store.release [id]).Balanced (rest ++ owed) := balanced_release [id] balanced
      simpa [release, done] using released
    have quiet : store.decrefJournal id = [] := by
      simp [decrefJournal, refs?, held, referenced]
    simp [releaseJournal, done, quiet, ih single]

end Dataflow.Store
