import Dataflow.Command
import Dataflow.Task

/-! Events tell the log what the machine does. An event is data; its level, its
origin and its wording follow from it. -/
namespace Dataflow

/-- Severity of an event, from the gravest to the most detailed. -/
inductive Level where
  | error
  | warn
  | info
  | debug
  | trace
deriving DecidableEq

namespace Level

def rank : Level → Nat
  | .error => 1
  | .warn => 2
  | .info => 3
  | .debug => 4
  | .trace => 5

def name : Level → String
  | .error => "ERROR"
  | .warn => "WARN"
  | .info => "INFO"
  | .debug => "DEBUG"
  | .trace => "TRACE"

end Level

inductive Event where
  /-- A reference was dropped from a cell that has none. -/
  | unreferenced (cell : CellId)
  /-- A reference was dropped from a cell that is not live. -/
  | missing (cell : CellId)
  | garbage (cell : CellId)
  | enqueue (task : Task)
  | skip (task : Task)
  | running (task : Task)
  | returned (key : String) (values results : List Value)
  | exec (task : String) (position : UInt64) (command : Command)
  | finished (task : Task) (collected : Nat)
deriving DecidableEq

namespace Event

/-- The value of a field of an event. A name is quoted in the log; other texts
stand as they are. -/
inductive Field where
  | text (content : String)
  | name (content : String)
deriving DecidableEq

def Field.content : Field → String
  | .text content => content
  | .name content => content

def level : Event → Level
  | .unreferenced _ => .warn
  | .exec _ _ _ => .trace
  | _ => .debug

/-- The part of the machine that reports the event. -/
def origin : Event → String
  | .unreferenced _ => "cellflow::runtime::memory"
  | .missing _ => "cellflow::runtime::memory"
  | .garbage _ => "cellflow::runtime::memory"
  | .enqueue _ => "cellflow::runtime::runner::dispatch"
  | _ => "cellflow::runtime::engine"

def message : Event → String
  | .unreferenced _ => "decref of cell with no references"
  | .missing _ => "release of missing cell"
  | .garbage _ => "garbage"
  | .enqueue _ => "enqueue"
  | .skip _ => "skip not ready"
  | .running _ => "running"
  | .returned _ _ _ => "primitive returned"
  | .exec _ _ _ => "exec"
  | .finished _ _ => "finished"

private def valuesText (values : List Value) : Field :=
  .text (Decimal.bracketed (values.map Decimal.valueText))

def fields : Event → List (String × Field)
  | .unreferenced cell => [("cell", .text (Decimal.wordText cell))]
  | .missing cell => [("cell", .text (Decimal.wordText cell))]
  | .garbage cell => [("cell", .text (Decimal.wordText cell))]
  | .enqueue task => [("task", .text task.text)]
  | .skip task => [("task", .text task.text)]
  | .running task => [("task", .text task.text)]
  | .returned key values results =>
    [("primitive", .name key), ("values", valuesText values), ("results", valuesText results)]
  | .exec task position command =>
    [("task", .name task), ("ip", .text (Decimal.wordText position)),
      ("command", .text command.text)]
  | .finished task collected =>
    [("task", .text task.text), ("collected", .text (Decimal.natText collected))]

end Event

end Dataflow
