import Dataflow.Operand

/-! Faults are the ways in which a command or a dispatch can go wrong while it
touches the operand stack or the cells. -/
namespace Dataflow

inductive Fault where
  | stackUnderflow
  /-- No cell has this id. -/
  | danglingReference (id : CellId)
  | indexOutOfRange (index : UInt64) (length : Nat)
  /-- A strict read of a cell that has no value yet. -/
  | unboundRead (id : CellId)
  | operandMismatch (expected : Operand.Role) (found : Operand)
deriving DecidableEq

def Fault.message : Fault → String
  | .stackUnderflow => "stack underflow"
  | .danglingReference id => "dangling reference to cell " ++ Decimal.wordText id
  | .indexOutOfRange index length =>
    "index " ++ Decimal.wordText index ++ " out of range for " ++ Decimal.natText length ++
      " cell(s)"
  | .unboundRead id => "read of unbound cell " ++ Decimal.wordText id
  | .operandMismatch expected found =>
    "expected " ++ expected.describe ++ ", found " ++ found.describe

/-- The cell that an operand has to be. -/
def Operand.asCell : Operand → Except Fault CellId
  | .cell id => .ok id
  | other => .error (.operandMismatch .cell other)

/-- The function name that an operand has to be. -/
def Operand.asName : Operand → Except Fault String
  | .literal word => .ok word
  | other => .error (.operandMismatch .name other)

end Dataflow
