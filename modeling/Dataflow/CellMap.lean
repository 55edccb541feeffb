import Dataflow.Cell

/-! A finite map from ids to cells, kept in ascending order of id. The order
is part of the type, so two maps with the same cells are equal, and listing a
map needs no sorting. -/
namespace Dataflow

structure CellMap where
  entries : List (CellId × Cell)
  ascending : entries.Pairwise (fun a b => a.1 < b.1)

namespace CellMap

@[ext] theorem ext {a b : CellMap} (same : a.entries = b.entries) : a = b := by
  cases a; cases b; cases same; rfl

instance : DecidableEq CellMap := fun a b =>
  if same : a.entries = b.entries then .isTrue (ext same)
  else .isFalse fun equal => same (congrArg entries equal)

def empty : CellMap := ⟨[], .nil⟩

/-- Put a cell at its place, replacing the cell that has the same id. -/
def place (id : CellId) (cell : Cell) : List (CellId × Cell) → List (CellId × Cell)
  | [] => [(id, cell)]
  | (first, held) :: rest =>
    if id < first then (id, cell) :: (first, held) :: rest
    else if first < id then (first, held) :: place id cell rest
    else (id, cell) :: rest

theorem mem_place {id : CellId} {cell : Cell} {entries : List (CellId × Cell)}
    {entry : CellId × Cell} (member : entry ∈ place id cell entries) :
    entry = (id, cell) ∨ entry ∈ entries := by
  induction entries with
  | nil => simpa [place] using member
  | cons head rest ih =>
    obtain ⟨first, held⟩ := head
    rw [place] at member
    split at member
    · simpa using member
    · split at member
      · rcases List.mem_cons.1 member with here | later
        · exact .inr (by simp [here])
        · exact (ih later).imp_right (List.mem_cons_of_mem _)
      · rcases List.mem_cons.1 member with here | later
        · exact .inl here
        · exact .inr (List.mem_cons_of_mem _ later)

theorem place_ascending (id : CellId) (cell : Cell) {entries : List (CellId × Cell)}
    (ascending : entries.Pairwise (fun a b => a.1 < b.1)) :
    (place id cell entries).Pairwise (fun a b => a.1 < b.1) := by
  induction entries with
  | nil => simp [place]
  | cons head rest ih =>
    obtain ⟨first, held⟩ := head
    obtain ⟨above, later⟩ := List.pairwise_cons.1 ascending
    rw [place]
    split
    · rename_i below
      refine List.pairwise_cons.2 ⟨fun entry member => ?_, ascending⟩
      rcases List.mem_cons.1 member with rfl | deeper
      · exact below
      · exact UInt64.lt_trans below (above entry deeper)
    · split
      · rename_i beyond
        refine List.pairwise_cons.2 ⟨fun entry member => ?_, ih later⟩
        rcases mem_place member with rfl | deeper
        · exact beyond
        · exact above entry deeper
      · rename_i notBelow notBeyond
        have same : id = first :=
          UInt64.le_antisymm (UInt64.not_lt.1 notBeyond) (UInt64.not_lt.1 notBelow)
        subst same
        exact List.pairwise_cons.2 ⟨above, later⟩

def insert (cells : CellMap) (id : CellId) (cell : Cell) : CellMap :=
  ⟨place id cell cells.entries, place_ascending id cell cells.ascending⟩

def get? (cells : CellMap) (id : CellId) : Option Cell :=
  cells.entries.lookup id

def contains (cells : CellMap) (id : CellId) : Bool :=
  (cells.get? id).isSome

/-- Keep the cells that satisfy `keep`. -/
def filter (cells : CellMap) (keep : Cell → Bool) : CellMap :=
  ⟨cells.entries.filter (fun entry => keep entry.2), cells.ascending.filter _⟩

/-- The ids in use, in ascending order. -/
def ids (cells : CellMap) : List CellId :=
  cells.entries.map (·.1)

/-- The greatest id in use. -/
def lastId? (cells : CellMap) : Option CellId :=
  cells.entries.getLast?.map (·.1)

def size (cells : CellMap) : Nat := cells.entries.length

private theorem lookup_entry (id first : CellId) (held : Cell) (rest : List (CellId × Cell)) :
    ((first, held) :: rest).lookup id = if id = first then some held else rest.lookup id := by
  by_cases same : id = first
  · simp [same]
  · simp [List.lookup_cons, same, beq_eq_false_iff_ne.2 same]

private theorem lookup_place (id other : CellId) (cell : Cell) (entries : List (CellId × Cell)) :
    (place id cell entries).lookup other =
      if other = id then some cell else entries.lookup other := by
  induction entries with
  | nil => simp [place, lookup_entry]
  | cons head rest ih =>
    obtain ⟨first, held⟩ := head
    rw [place]
    split
    · rw [lookup_entry]
    · split
      · rename_i beyond
        rw [lookup_entry, lookup_entry, ih]
        by_cases same : other = first
        · have different : first ≠ id := fun equal => UInt64.lt_irrefl id (equal ▸ beyond)
          simp [same, different]
        · simp [same]
      · rename_i notBelow notBeyond
        have same : id = first :=
          UInt64.le_antisymm (UInt64.not_lt.1 notBeyond) (UInt64.not_lt.1 notBelow)
        subst same
        by_cases here : other = id <;> simp [lookup_entry, here]

private theorem lookup_below {bound : CellId} {entries : List (CellId × Cell)}
    (above : ∀ entry ∈ entries, bound < entry.1) : entries.lookup bound = none := by
  induction entries with
  | nil => rfl
  | cons head rest ih =>
    have different : bound ≠ head.1 := fun equal =>
      UInt64.lt_irrefl bound (by have := above head (by simp); rwa [← equal] at this)
    rw [lookup_entry, if_neg different]
    exact ih fun entry member => above entry (by simp [member])

@[simp] theorem get?_empty (id : CellId) : empty.get? id = none := rfl

theorem get?_insert (cells : CellMap) (id other : CellId) (cell : Cell) :
    (cells.insert id cell).get? other = if other = id then some cell else cells.get? other :=
  lookup_place id other cell cells.entries

/-- Filtering decides on each cell alone. -/
theorem get?_filter (cells : CellMap) (keep : Cell → Bool) (id : CellId) :
    (cells.filter keep).get? id = (cells.get? id).filter keep := by
  obtain ⟨entries, ascending⟩ := cells
  simp only [get?, filter]
  induction entries with
  | nil => rfl
  | cons head rest ih =>
    obtain ⟨above, later⟩ := List.pairwise_cons.1 ascending
    obtain ⟨first, held⟩ := head
    by_cases same : id = first
    · subst same
      have absent : (rest.filter fun entry => keep entry.2).lookup id = none :=
        lookup_below fun entry member => above entry (List.mem_filter.1 member).1
      cases kept : keep held <;> simp [kept, absent, Option.filter]
    · cases kept : keep held <;> simp [lookup_entry, kept, same, ih later]

private theorem length_place (id : CellId) (cell : Cell) {entries : List (CellId × Cell)}
    (ascending : entries.Pairwise (fun a b => a.1 < b.1)) :
    (place id cell entries).length =
      if (entries.lookup id).isSome then entries.length else entries.length + 1 := by
  induction entries with
  | nil => rfl
  | cons head rest ih =>
    obtain ⟨first, held⟩ := head
    obtain ⟨above, later⟩ := List.pairwise_cons.1 ascending
    rw [place, lookup_entry]
    split
    · rename_i below
      have different : id ≠ first := UInt64.ne_of_lt below
      have absent : rest.lookup id = none :=
        lookup_below fun entry member => UInt64.lt_trans below (above entry member)
      simp [different, absent]
    · split
      · rename_i beyond
        have different : id ≠ first := (UInt64.ne_of_lt beyond).symm
        rw [if_neg different, List.length_cons, ih later]
        split <;> rfl
      · rename_i notBelow notBeyond
        have same : id = first :=
          UInt64.le_antisymm (UInt64.not_lt.1 notBeyond) (UInt64.not_lt.1 notBelow)
        simp [same]

/-- A cell under a new id is one more; under an id in use it replaces another. -/
theorem size_insert (cells : CellMap) (id : CellId) (cell : Cell) :
    (cells.insert id cell).size = if cells.contains id then cells.size else cells.size + 1 :=
  length_place id cell cells.ascending

theorem mem_entries_iff (cells : CellMap) (id : CellId) (cell : Cell) :
    (id, cell) ∈ cells.entries ↔ cells.get? id = some cell := by
  obtain ⟨entries, ascending⟩ := cells
  simp only [get?]
  induction entries with
  | nil => simp
  | cons head rest ih =>
    obtain ⟨above, later⟩ := List.pairwise_cons.1 ascending
    obtain ⟨first, held⟩ := head
    by_cases same : id = first
    · subst same
      have absent : (id, cell) ∉ rest := fun member => UInt64.lt_irrefl id (above _ member)
      simp [absent, eq_comm]
    · simp [lookup_entry, same, ih later]

/-- Later entries replace earlier ones with the same id. -/
def ofList (entries : List (CellId × Cell)) : CellMap :=
  entries.foldl (fun cells entry => cells.insert entry.1 entry.2) empty

end CellMap

end Dataflow
