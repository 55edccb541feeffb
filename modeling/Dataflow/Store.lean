import Dataflow.CellMap
import Dataflow.Fault

/-! The store holds every live cell. Cells are reference counted, and a count
that falls to zero frees nothing by itself: a later sweep of the whole store
removes all unreferenced cells at once. An operation that faults leaves the
store as it was. Counters wrap at the width of a word. -/
namespace Dataflow

/-- What reading an unbound cell means. -/
inductive ReadPolicy where
  /-- It reads as zero. -/
  | lenient
  /-- It is a fault. -/
  | strict
deriving DecidableEq

structure Store where
  cells : CellMap
  /-- Cells allocated so far. -/
  allocations : UInt64
  /-- Sweeps made so far. -/
  collections : UInt64
  /-- Cells removed by sweeps so far. -/
  collected : UInt64
deriving DecidableEq

namespace Store

def empty : Store := ⟨.empty, 0, 0, 0⟩

def get? (store : Store) (id : CellId) : Option Cell :=
  store.cells.get? id

def contains (store : Store) (id : CellId) : Bool :=
  store.cells.contains id

def refs? (store : Store) (id : CellId) : Option UInt64 :=
  (store.get? id).map (·.refs)

/-- Number of live cells. -/
def size (store : Store) : Nat := store.cells.size

def fetch (store : Store) (id : CellId) : Except Fault Cell :=
  match store.get? id with
  | some cell => .ok cell
  | none => .error (.danglingReference id)

/-- Replace a live cell by what `change` makes of it. -/
def update (store : Store) (id : CellId) (change : Cell → Cell) : Except Fault Store :=
  match store.get? id with
  | some cell => .ok { store with cells := store.cells.insert id (change cell) }
  | none => .error (.danglingReference id)

/-- The id of the next cell: one past the greatest live id. An id comes back
once nothing at or above it is live. -/
def freshId (store : Store) : CellId :=
  match store.cells.lastId? with
  | some id => id + 1
  | none => 1

/-- Add a fresh cell at `freshId`. -/
def allocate (store : Store) : Store :=
  { store with
    cells := store.cells.insert store.freshId .fresh
    allocations := store.allocations + 1 }

/-- Give a cell a value, whether or not it had one. -/
def bind (store : Store) (id : CellId) (value : Value) : Except Fault Store :=
  store.update id fun cell => { cell with bound := true, value := value }

def read (store : Store) (policy : ReadPolicy) (id : CellId) : Except Fault Value :=
  match store.fetch id with
  | .error fault => .error fault
  | .ok cell =>
    if cell.bound then .ok cell.value
    else
      match policy with
      | .lenient => .ok 0
      | .strict => .error (.unboundRead id)

def isBound (store : Store) (id : CellId) : Except Fault Bool :=
  (store.fetch id).map (·.bound)

def incref (store : Store) (id : CellId) : Except Fault Store :=
  store.update id fun cell => { cell with refs := cell.refs + 1 }

/-- Drop one reference. A count of zero stays zero. -/
def decref (store : Store) (id : CellId) : Except Fault Store :=
  store.update id fun cell =>
    { cell with refs := if cell.refs = 0 then 0 else cell.refs - 1 }

/-- Drop one reference of each listed cell, passing over ids that are not live. -/
def release (store : Store) : List CellId → Store
  | [] => store
  | id :: rest =>
    match store.decref id with
    | .ok dropped => dropped.release rest
    | .error _ => store.release rest

/-- The ids of the unreferenced cells, in ascending order. -/
def garbage (store : Store) : List CellId :=
  (store.cells.filter (·.refs == 0)).ids

/-- Remove the unreferenced cells. -/
def collect (store : Store) : Store :=
  { store with
    cells := store.cells.filter (·.refs != 0)
    collections := store.collections + 1
    collected := store.collected + .ofNat store.garbage.length }

/-- Make one change for each item, in order. A fault ends the list and comes
with the store that the changes before it left. -/
def applyAll (change : Store → α → Except Fault Store) (store : Store) :
    List α → Except (Fault × Store) Store
  | [] => .ok store
  | item :: rest =>
    match change store item with
    | .ok changed => applyAll change changed rest
    | .error fault => .error (fault, store)

def increfAll (store : Store) (ids : List CellId) : Except (Fault × Store) Store :=
  store.applyAll incref ids

def bindAll (store : Store) (bindings : List (CellId × Value)) :
    Except (Fault × Store) Store :=
  store.applyAll (fun store binding => store.bind binding.1 binding.2) bindings

/-- The values of the listed cells, in order. -/
def readAll (store : Store) (policy : ReadPolicy) (ids : List CellId) :
    Except Fault (List Value) :=
  ids.mapM (store.read policy)

end Store

end Dataflow
