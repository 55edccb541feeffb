import Dataflow.Task

/-! The frame is the state of the function task that is running: where it is in
its body, its operand stack, and the call that it is putting together. -/
namespace Dataflow

/-- A call under construction. The first `sharedInputs` inputs and
`sharedOutputs` outputs already belong to an enqueued copy of the call. -/
structure Call where
  task : Task
  sharedInputs : UInt64
  sharedOutputs : UInt64
deriving DecidableEq

namespace Call

def empty : Call := ⟨.blank, 0, 0⟩

/-- The shared counts stay within the lists they count. A frame read from a
file may break this. -/
def isSound (call : Call) : Bool :=
  call.sharedInputs.toNat ≤ call.task.inputs.length &&
    call.sharedOutputs.toNat ≤ call.task.outputs.length

/-- The cells that an enqueued copy of the call already refers to. -/
def shared (call : Call) : List CellId :=
  call.task.inputs.take call.sharedInputs.toNat ++
    call.task.outputs.take call.sharedOutputs.toNat

def addInput (call : Call) (id : CellId) : Call :=
  { call with task := { call.task with inputs := call.task.inputs ++ [id] } }

def addOutput (call : Call) (id : CellId) : Call :=
  { call with task := { call.task with outputs := call.task.outputs ++ [id] } }

/-- The call once a copy of it is enqueued under this name. -/
def issued (call : Call) (name : String) : Call :=
  { task := { call.task with name := some name }
    sharedInputs := .ofNat call.task.inputs.length
    sharedOutputs := .ofNat call.task.outputs.length }

end Call

structure Frame where
  task : Task
  /-- Index of the next command in the body. -/
  position : UInt64
  /-- Operands, the top one first. -/
  stack : List Operand
  call : Call
deriving DecidableEq

namespace Frame

def start (task : Task) : Frame := ⟨task, 0, [], .empty⟩

def label (frame : Frame) : String := frame.task.label

def push (frame : Frame) (operand : Operand) : Frame :=
  { frame with stack := operand :: frame.stack }

def peek (frame : Frame) : Except Fault Operand :=
  match frame.stack with
  | [] => .error .stackUnderflow
  | top :: _ => .ok top

def peekCell (frame : Frame) : Except Fault CellId :=
  match frame.peek with
  | .error fault => .error fault
  | .ok top => top.asCell

/-- The frame without its top operand. -/
def drop (frame : Frame) : Frame :=
  { frame with stack := frame.stack.drop 1 }

end Frame

/-- The cell at an index of a list of cells. -/
def cellAt (cells : List CellId) (index : UInt64) : Except Fault CellId :=
  match cells[index.toNat]? with
  | some id => .ok id
  | none => .error (.indexOutOfRange index cells.length)

end Dataflow
