/-! Cells are the memory of a dataflow program. A cell is created unbound,
receives a value at most by assignment, and counts the task roles that still
refer to it. -/
namespace Dataflow

abbrev CellId := UInt64

abbrev Value := Int64

structure Cell where
  bound : Bool
  value : Value
  /-- Number of references held by tasks and by calls under construction. -/
  refs : UInt64
deriving DecidableEq

/-- A new cell is unbound and nothing refers to it. -/
def Cell.fresh : Cell := ⟨false, 0, 0⟩

end Dataflow
