import Dataflow.Command
import Dataflow.Frame

/-! Execution of one command on the running frame, the store and the queue. A
command that stops part of the way leaves what it did up to there. -/
namespace Dataflow

structure Machine where
  frame : Frame
  store : Store
  queue : Queue
deriving DecidableEq

/-- Why a command stops before its end. -/
inductive Stop where
  | fault (fault : Fault)
  /-- The call counts more shared cells than it lists. -/
  | unsoundCall
deriving DecidableEq

namespace Machine

/-- A command either completes or stops, and a stop comes with the state that
the command left behind. -/
abbrev Attempt (α : Type) := Except (Stop × Machine) α

/-- A fault stops the command in the present state. -/
def check (machine : Machine) : Except Fault α → Attempt α
  | .ok result => .ok result
  | .error fault => .error (.fault fault, machine)

def push (machine : Machine) (operand : Operand) : Machine :=
  { machine with frame := machine.frame.push operand }

def withCall (machine : Machine) (call : Call) : Machine :=
  { machine with frame := { machine.frame with call := call } }

def withStore (machine : Machine) (store : Store) : Machine :=
  { machine with store := store }

/-- Take the top operand, which has to play the given role. It is gone also if
it cannot. -/
def pop (role : Operand → Except Fault α) (machine : Machine) : Attempt (α × Machine) := do
  let top ← machine.check machine.frame.peek
  let rest := { machine with frame := machine.frame.drop }
  let operand ← rest.check (role top)
  return (operand, rest)

def popCell : Machine → Attempt (CellId × Machine) := pop Operand.asCell

def popName : Machine → Attempt (String × Machine) := pop Operand.asName

/-- Pop a cell, which gains a reference for its role in the call. -/
def popRole (machine : Machine) : Attempt (CellId × Machine) := do
  let (id, machine) ← machine.popCell
  let store ← machine.check (machine.store.incref id)
  return (id, machine.withStore store)

/-- Enqueue a copy of the call. Cells that an earlier copy shares gain one more
reference, so each enqueued task has its own reference to every cell it lists. -/
def enqueueCall (name : String) (machine : Machine) : Attempt Machine :=
  let call := machine.frame.call
  if call.isSound then
    match machine.store.increfAll call.shared with
    | .error (fault, store) => .error (.fault fault, machine.withStore store)
    | .ok store =>
      let issued := call.issued name
      .ok { (machine.withCall issued).withStore store with
        queue := machine.queue.push issued.task }
  else .error (.unsoundCall, machine)

/-- Execute a command. -/
def execute (policy : ReadPolicy) (command : Command) (machine : Machine) : Attempt Machine :=
  match command with
  | .dupl => do
    let top ← machine.check machine.frame.peek
    return machine.push top
  | .descCall => return machine.withCall .empty
  | .create =>
    return (machine.withStore machine.store.allocate).push (.cell machine.store.freshId)
  | .assign value => do
    let target ← machine.check machine.frame.peekCell
    let store ← machine.check (machine.store.bind target value)
    return machine.withStore store
  | .assignTop => do
    let (source, machine) ← machine.popCell
    let value ← machine.check (machine.store.read policy source)
    let target ← machine.check machine.frame.peekCell
    let store ← machine.check (machine.store.bind target value)
    return machine.withStore store
  | .output => do
    let (id, machine) ← machine.popRole
    return machine.withCall (machine.frame.call.addOutput id)
  | .input => do
    let (id, machine) ← machine.popRole
    return machine.withCall (machine.frame.call.addInput id)
  | .push word => return machine.push (.literal word)
  | .pushFunc => do
    let (name, machine) ← machine.popName
    machine.enqueueCall name
  | .pushParam index => do
    let id ← machine.check (cellAt machine.frame.task.inputs index)
    return machine.push (.cell id)
  | .pushReturn index => do
    let id ← machine.check (cellAt machine.frame.task.outputs index)
    return machine.push (.cell id)

end Machine

end Dataflow
