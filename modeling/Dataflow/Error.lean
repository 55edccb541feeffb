import Dataflow.Source.Block
import Dataflow.Task

/-! Errors end a run. Each keeps its cause; the wording is in one place. -/
namespace Dataflow

/-- Why a primitive task fails. -/
inductive PrimitiveFailure where
  /-- The primitive itself refused. -/
  | refused (message : String)
  | tooFewResults (returned outputs : Nat)
deriving DecidableEq

def PrimitiveFailure.message : PrimitiveFailure → String
  | .refused message => message
  | .tooFewResults returned outputs =>
    "returned " ++ Decimal.natText returned ++ " value(s) for " ++ Decimal.natText outputs ++
      " output(s)"

inductive Error where
  | source (error : Source.Error)
  /-- The name is neither a function nor a primitive. -/
  | unknownFunction (name : String)
  /-- The command at this position of a function task faulted. -/
  | command (task : String) (position : UInt64) (command : Command) (fault : Fault)
  | dispatch (task : String) (fault : Fault)
  | primitiveFailed (task : String) (failure : PrimitiveFailure)
  /-- The snapshot was taken from a program with another fingerprint. -/
  | foreignSnapshot (expected found : String)
  | snapshotVersion (expected found : UInt32)
  /-- The text is not a snapshot. -/
  | invalidSnapshot
deriving DecidableEq

namespace Error

private def mismatch (expected found : String) : String :=
  "snapshot belongs to program " ++ found ++ ", expected " ++ expected

def message : Error → String
  | .source error => error.message
  | .unknownFunction name => "no such function `" ++ name ++ "`"
  | .command task position failed _ =>
    "task `" ++ task ++ "` failed at command " ++ Decimal.wordText position ++ " (`" ++
      failed.text ++ "`)"
  | .dispatch task _ => "task `" ++ task ++ "` could not be dispatched"
  | .primitiveFailed task failure =>
    "primitive `" ++ task ++ "` failed: " ++ failure.message
  | .foreignSnapshot expected found => mismatch expected found
  | .snapshotVersion expected found =>
    mismatch ("version " ++ Decimal.natText expected.toNat)
      ("version " ++ Decimal.natText found.toNat)
  | .invalidSnapshot => "invalid snapshot"

/-- The fault behind an error, if there is one. -/
def fault? : Error → Option Fault
  | .command _ _ _ fault => some fault
  | .dispatch _ fault => some fault
  | _ => none

/-- The task that an error belongs to, if there is one. -/
def task? : Error → Option String
  | .command task _ _ _ => some task
  | .dispatch task _ => some task
  | .primitiveFailed task _ => some task
  | .unknownFunction name => some name
  | _ => none

end Error

end Dataflow
