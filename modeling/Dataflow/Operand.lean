import Dataflow.Cell
import Dataflow.Text.Decimal

/-! Operands are what the commands of a function leave on the stack. -/
namespace Dataflow

inductive Operand where
  | cell (id : CellId)
  /-- A word that stands for itself, such as the name of a function to call. -/
  | literal (word : String)
deriving DecidableEq

namespace Operand

def describe : Operand → String
  | .cell id => "cell " ++ Decimal.wordText id
  | .literal word => "literal `" ++ word ++ "`"

/-- What a command expects of an operand that it takes from the stack. -/
inductive Role where
  | cell
  | name
deriving DecidableEq

def Role.describe : Role → String
  | .cell => "a cell id"
  | .name => "a function name"

end Operand

end Dataflow
