import Dataflow.Store

/-! What each store operation does to the cell under every id. Later proofs
read a store through `get?` and `contains` and never through its list of
entries. Each operation on a live cell succeeds, so the faults of a store come
from ids that are not live and from nothing else. -/
namespace Dataflow

namespace CellMap

theorem entries_nodup (cells : CellMap) : cells.entries.Nodup := by
  apply cells.ascending.imp
  rintro entry other below rfl
  exact UInt64.lt_irrefl _ below

/-- A map is determined by what is found in it. -/
theorem ext_get? {cells others : CellMap} (same : ∀ id, cells.get? id = others.get? id) :
    cells = others := by
  have members : ∀ entry, entry ∈ cells.entries ↔ entry ∈ others.entries := by
    rintro ⟨id, cell⟩
    rw [mem_entries_iff, mem_entries_iff, same]
  apply CellMap.ext
  apply List.Perm.eq_of_pairwise _ cells.ascending others.ascending
  · exact (List.perm_ext_iff_of_nodup cells.entries_nodup others.entries_nodup).mpr members
  · intro entry other _ _ below above
    exact absurd (UInt64.lt_trans below above) (UInt64.lt_irrefl _)

theorem mem_ids {cells : CellMap} {id : CellId} :
    id ∈ cells.ids ↔ ∃ cell, cells.get? id = some cell := by
  simp only [ids, List.mem_map, Prod.exists, exists_and_right, exists_eq_right, mem_entries_iff]

theorem ids_ascending (cells : CellMap) : cells.ids.Pairwise (· < ·) :=
  List.pairwise_map.mpr cells.ascending

private theorem key_le_getLast {entries : List (CellId × Cell)} {last entry : CellId × Cell}
    (ascending : entries.Pairwise (fun a b => a.1 < b.1))
    (ends : entries.getLast? = some last) (member : entry ∈ entries) : entry.1 ≤ last.1 := by
  obtain ⟨front, rfl⟩ := List.getLast?_eq_some_iff.mp ends
  rcases List.mem_append.mp member with inside | atEnd
  · have below := (List.pairwise_append.mp ascending).2.2 entry inside last (by simp)
    exact UInt64.le_of_lt below
  · rw [List.mem_singleton.mp atEnd]
    exact UInt64.le_refl _

/-- No id in use exceeds the last one. -/
theorem le_lastId {cells : CellMap} {last id : CellId} {cell : Cell}
    (ends : cells.lastId? = some last) (held : cells.get? id = some cell) : id ≤ last := by
  obtain ⟨entry, final, rfl⟩ := Option.map_eq_some_iff.mp ends
  exact key_le_getLast cells.ascending final ((mem_entries_iff cells id cell).mpr held)

theorem lastId_held {cells : CellMap} {last : CellId} (ends : cells.lastId? = some last) :
    ∃ cell, cells.get? last = some cell := by
  obtain ⟨⟨id, cell⟩, final, rfl⟩ := Option.map_eq_some_iff.mp ends
  have member : (id, cell) ∈ cells.entries := List.mem_of_getLast? final
  exact ⟨cell, (mem_entries_iff cells id cell).mp member⟩

theorem get?_of_lastId_none {cells : CellMap} (none : cells.lastId? = none) (id : CellId) :
    cells.get? id = .none := by
  have empty : cells.entries = [] := by simpa [lastId?] using none
  simp [get?, empty]

end CellMap

namespace Store

variable {store after : Store} {id other : CellId} {change : Cell → Cell}

theorem contains_iff : store.contains id = true ↔ ∃ cell, store.get? id = some cell := by
  simp only [contains, CellMap.contains, get?, Option.isSome_iff_exists]

theorem contains_of_get? {cell : Cell} (held : store.get? id = some cell) :
    store.contains id = true :=
  contains_iff.mpr ⟨cell, held⟩

/-- Two stores whose cells are live under the same ids. -/
def SameIds (store after : Store) : Prop :=
  ∀ id, after.contains id = store.contains id

theorem same_ids_of_map {change : CellId → Cell → Cell}
    (mapped : ∀ id, after.get? id = (store.get? id).map (change id)) : store.SameIds after := by
  intro id
  have shown : (after.get? id).isSome = (store.get? id).isSome := by simp [mapped id]
  exact shown

/-- A change of a live cell succeeds. -/
theorem update_live (live : store.contains id = true) (change : Cell → Cell) :
    ∃ after, store.update id change = .ok after ∧
      ∀ other, after.get? other =
        (store.get? other).map fun cell => if other = id then change cell else cell := by
  obtain ⟨cell, held⟩ := contains_iff.mp live
  refine ⟨{ store with cells := store.cells.insert id (change cell) }, ?_, ?_⟩
  · simp [update, held]
  · intro other
    have placed := CellMap.get?_insert store.cells id other (change cell)
    by_cases same : other = id
    · subst same
      rw [held]
      simpa [get?] using placed
    · simpa [get?, same] using placed

theorem update_dead (dead : store.contains id = false) (change : Cell → Cell) :
    store.update id change = .error (.danglingReference id) := by
  have absent : store.get? id = none := by
    simpa [contains, CellMap.contains, get?] using dead
  simp [update, absent]

/-- A change that succeeds was one of a live cell, and changed nothing else. -/
theorem update_ok {change : Cell → Cell} (updated : store.update id change = .ok after) :
    store.contains id = true ∧ ∀ other, after.get? other =
      (store.get? other).map fun cell => if other = id then change cell else cell := by
  cases live : store.contains id with
  | false => simp [update_dead live] at updated
  | true =>
    obtain ⟨expected, done, mapped⟩ := update_live live change
    cases done.symm.trans updated
    exact ⟨rfl, mapped⟩

theorem bind_live (live : store.contains id = true) (value : Value) :
    ∃ after, store.bind id value = .ok after ∧
      ∀ other, after.get? other = (store.get? other).map fun cell =>
        if other = id then { cell with bound := true, value := value } else cell :=
  update_live live _

theorem incref_live (live : store.contains id = true) :
    ∃ after, store.incref id = .ok after ∧
      ∀ other, after.get? other = (store.get? other).map fun cell =>
        if other = id then { cell with refs := cell.refs + 1 } else cell :=
  update_live live _

theorem decref_live (live : store.contains id = true) :
    ∃ after, store.decref id = .ok after ∧
      ∀ other, after.get? other = (store.get? other).map fun cell =>
        if other = id then
          { cell with refs := if cell.refs = 0 then 0 else cell.refs - 1 } else cell :=
  update_live live _

theorem read_live (live : store.contains id = true) (policy : ReadPolicy) (fault : Fault)
    (failed : store.read policy id = .error fault) : fault = .unboundRead id := by
  obtain ⟨cell, held⟩ := contains_iff.mp live
  cases bound : cell.bound with
  | true => simp [read, fetch, held, bound] at failed
  | false =>
    cases policy with
    | lenient => simp [read, fetch, held, bound] at failed
    | strict =>
      have refused : store.read .strict id = .error (.unboundRead id) := by
        simp [read, fetch, held, bound]
      rw [refused] at failed
      cases failed
      rfl

/-- Allocation puts a fresh cell under the fresh id and changes no other. -/
theorem get?_allocate (store : Store) (id : CellId) :
    store.allocate.get? id = if id = store.freshId then some .fresh else store.get? id :=
  CellMap.get?_insert store.cells store.freshId id .fresh

/-- As long as ids do not reach the end of a word, the fresh id exceeds every
id in use. -/
theorem lt_freshId (within : ∀ id, store.contains id = true → id.toNat + 1 < UInt64.size)
    (live : store.contains id = true) : id < store.freshId := by
  obtain ⟨cell, held⟩ := contains_iff.mp live
  cases ends : store.cells.lastId? with
  | none =>
    have absent : store.get? id = none := CellMap.get?_of_lastId_none ends id
    simp [held] at absent
  | some last =>
    obtain ⟨final, atEnd⟩ := CellMap.lastId_held ends
    have bound := within last (contains_of_get? atEnd)
    have below : id.toNat ≤ last.toNat :=
      UInt64.le_iff_toNat_le.mp (CellMap.le_lastId ends held)
    have next : (last + 1).toNat = last.toNat + 1 := by
      rw [UInt64.toNat_add]
      exact Nat.mod_eq_of_lt bound
    have fresh : store.freshId = last + 1 := by simp [freshId, ends]
    rw [fresh]
    exact UInt64.lt_iff_toNat_lt.mpr (by omega)

theorem freshId_not_live (within : ∀ id, store.contains id = true → id.toNat + 1 < UInt64.size) :
    store.contains store.freshId = false := by
  refine Bool.eq_false_iff.mpr fun live => ?_
  exact UInt64.lt_irrefl _ (lt_freshId within live)

/-- The fresh id is at most one above a bound on the ids in use. -/
theorem freshId_le {bound : Nat} (within : ∀ id, store.contains id = true → id.toNat ≤ bound) :
    store.freshId.toNat ≤ bound + 1 := by
  rw [freshId]
  cases ends : store.cells.lastId? with
  | none => simp
  | some last =>
    obtain ⟨final, atEnd⟩ := CellMap.lastId_held ends
    have below := within last (contains_of_get? atEnd)
    have wrapped : (last + 1).toNat ≤ last.toNat + 1 := by
      rw [UInt64.toNat_add]
      exact Nat.mod_le _ _
    exact Nat.le_trans wrapped (by omega)

/-- A sweep keeps exactly the cells that something refers to. -/
theorem get?_collect (store : Store) (id : CellId) :
    store.collect.get? id = (store.get? id).filter (·.refs != 0) :=
  CellMap.get?_filter store.cells _ id

/-- A change of a cell leaves the counters alone, and the number of cells with them. -/
theorem update_counters (updated : store.update id change = .ok after) :
    after = { store with cells := after.cells } ∧ after.size = store.size := by
  unfold update at updated
  split at updated
  · rename_i cell held
    cases updated
    refine ⟨rfl, (CellMap.size_insert _ _ _).trans (if_pos ?_)⟩
    exact contains_of_get? held
  · cases updated

theorem size_allocate (new : store.contains store.freshId = false) :
    store.allocate.size = store.size + 1 := by
  refine (CellMap.size_insert _ _ _).trans (if_neg ?_)
  exact Bool.eq_false_iff.mp new

/-- A sweep removes what it reports. -/
theorem size_collect (store : Store) : store.collect.size + store.garbage.length = store.size := by
  have parts := List.length_eq_countP_add_countP (fun entry : CellId × Cell => entry.2.refs == 0)
    (l := store.cells.entries)
  simp only [List.countP_eq_length_filter] at parts
  simp only [size, CellMap.size, collect, garbage, CellMap.ids, CellMap.filter, List.length_map]
  rw [parts, Nat.add_comm]
  congr 2
  apply List.filter_congr
  intro entry _
  rw [bne, decide_not, Bool.decide_eq_true]

/-- Changes that each succeed on live cells succeed as a whole, and every cell
undergoes them one after the other. -/
theorem apply_all_live {change : Store → α → Except Fault Store} (subject : α → CellId)
    {effect : α → CellId → Cell → Cell}
    (single : ∀ store item, store.contains (subject item) = true →
      ∃ after, change store item = .ok after ∧
        ∀ id, after.get? id = (store.get? id).map (effect item id))
    (items : List α) (live : ∀ item ∈ items, store.contains (subject item) = true) :
    ∃ after, store.applyAll change items = .ok after ∧
      ∀ id, after.get? id = (store.get? id).map fun cell =>
        items.foldl (fun cell item => effect item id cell) cell := by
  induction items generalizing store with
  | nil => exact ⟨store, rfl, fun id => by simp⟩
  | cons item rest ih =>
    obtain ⟨middle, changed, mapped⟩ := single store item (live item (by simp))
    have later : ∀ next ∈ rest, middle.contains (subject next) = true := fun next member =>
      (same_ids_of_map mapped _).trans (live next (by simp [member]))
    obtain ⟨after, done, mappedLater⟩ := ih later
    refine ⟨after, by simpa [applyAll, changed] using done, fun id => ?_⟩
    rw [mappedLater id, mapped id, Option.map_map]
    rfl

private theorem count_increments (ids : List CellId) (id : CellId) (cell : Cell) :
    ids.foldl (fun cell item => if id = item then { cell with refs := cell.refs + 1 } else cell)
        cell =
      { cell with refs := cell.refs + .ofNat (ids.count id) } := by
  induction ids generalizing cell with
  | nil => simp
  | cons item rest ih =>
    rw [List.foldl_cons, ih, List.count_cons]
    by_cases same : id = item
    · subst same
      simp [UInt64.ofNat_add, UInt64.add_assoc, UInt64.add_comm]
    · simp [same, Ne.symm same]

/-- Each cell gains one reference for every time it is listed. -/
theorem increfAll_live (ids : List CellId) (live : ∀ id ∈ ids, store.contains id = true) :
    ∃ after, store.increfAll ids = .ok after ∧
      ∀ id, after.get? id = (store.get? id).map fun cell =>
        { cell with refs := cell.refs + .ofNat (ids.count id) } := by
  have single : ∀ store id, Store.contains store id = true →
      ∃ after, store.incref id = .ok after ∧
        ∀ other, after.get? other = (store.get? other).map fun cell =>
          if other = id then { cell with refs := cell.refs + 1 } else cell :=
    fun _ _ held => incref_live held
  obtain ⟨after, done, mapped⟩ := apply_all_live (fun id => id) single ids live
  exact ⟨after, done, fun id => by simpa only [count_increments] using mapped id⟩

/-- What a list of bindings makes of the cell with an id: the last one counts. -/
def rebound (bindings : List (CellId × Value)) (id : CellId) (cell : Cell) : Cell :=
  bindings.foldl (fun cell binding =>
    if id = binding.1 then { cell with bound := true, value := binding.2 } else cell) cell

@[simp] theorem rebound_refs (bindings : List (CellId × Value)) (id : CellId) (cell : Cell) :
    (rebound bindings id cell).refs = cell.refs := by
  induction bindings generalizing cell with
  | nil => rfl
  | cons binding rest ih =>
    rw [rebound, List.foldl_cons, ← rebound, ih]
    split <;> rfl

theorem bindAll_live (bindings : List (CellId × Value))
    (live : ∀ binding ∈ bindings, store.contains binding.1 = true) :
    ∃ after, store.bindAll bindings = .ok after ∧
      ∀ id, after.get? id = (store.get? id).map (rebound bindings id) :=
  apply_all_live (·.1) (fun _ binding held => bind_live held binding.2) bindings live

/-- Releasing lowers each count by the number of times the cell is listed, and
stops at zero. Ids that are not live have no effect. -/
theorem get?_release (store : Store) (ids : List CellId) (id : CellId) :
    (store.release ids).get? id = (store.get? id).map fun cell =>
      { cell with refs := .ofNat (cell.refs.toNat - ids.count id) } := by
  induction ids generalizing store with
  | nil => simp [release]
  | cons first rest ih =>
    rw [release]
    cases live : store.contains first with
    | true =>
      obtain ⟨after, done, mapped⟩ := decref_live live
      simp only [done]
      rw [ih, mapped id, Option.map_map]
      congr 1
      funext cell
      by_cases same : id = first
      · subst same
        by_cases zero : cell.refs = 0
        · simp [zero]
        · have positive : 1 ≤ cell.refs.toNat :=
            Nat.pos_of_ne_zero fun none => zero (UInt64.toNat_inj.mp none)
          have lowered : (cell.refs - 1).toNat = cell.refs.toNat - 1 :=
            UInt64.toNat_sub_of_le _ _ (UInt64.le_iff_toNat_le.mpr positive)
          simp only [Function.comp_apply, if_pos, if_neg zero, lowered, List.count_cons_self]
          congr 2
          omega
      · simp [same, List.count_cons_of_ne (Ne.symm same)]
    | false =>
      simp only [show store.decref first = .error (.danglingReference first) from
        update_dead live _]
      rw [ih]
      by_cases same : id = first
      · subst same
        have absent : store.get? id = none := by
          simpa [contains, CellMap.contains, get?] using live
        simp [absent]
      · rw [List.count_cons_of_ne (Ne.symm same)]

/-! ### Counters -/

/-- Neither the number of cells nor any counter differs. -/
structure SameCounts (store after : Store) : Prop where
  size : after.size = store.size
  allocations : after.allocations = store.allocations
  collections : after.collections = store.collections
  collected : after.collected = store.collected

theorem sameCounts_refl (store : Store) : store.SameCounts store := ⟨rfl, rfl, rfl, rfl⟩

theorem SameCounts.trans {middle : Store} (first : store.SameCounts middle)
    (second : middle.SameCounts after) : store.SameCounts after where
  size := second.size.trans first.size
  allocations := second.allocations.trans first.allocations
  collections := second.collections.trans first.collections
  collected := second.collected.trans first.collected

theorem update_sameCounts (updated : store.update id change = .ok after) :
    store.SameCounts after := by
  obtain ⟨same, size⟩ := update_counters updated
  rw [same] at size ⊢
  exact ⟨size, rfl, rfl, rfl⟩

theorem applyAll_sameCounts {change : Store → α → Except Fault Store}
    (single : ∀ {store item after}, change store item = .ok after → SameCounts store after)
    {items : List α} (changed : store.applyAll change items = .ok after) :
    store.SameCounts after := by
  induction items generalizing store with
  | nil =>
    cases changed
    exact sameCounts_refl _
  | cons item rest ih =>
    rw [applyAll] at changed
    split at changed
    · rename_i middle first
      exact (single first).trans (ih changed)
    · cases changed

theorem bindAll_sameCounts {bindings : List (CellId × Value)}
    (bound : store.bindAll bindings = .ok after) : store.SameCounts after :=
  applyAll_sameCounts (fun done => update_sameCounts done) bound

theorem release_sameCounts (store : Store) (ids : List CellId) :
    store.SameCounts (store.release ids) := by
  induction ids generalizing store with
  | nil => exact sameCounts_refl store
  | cons id rest ih =>
    rw [release]
    split
    · rename_i dropped done
      exact (update_sameCounts done).trans (ih dropped)
    · exact ih store

end Store

end Dataflow
