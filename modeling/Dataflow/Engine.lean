import Dataflow.Error
import Dataflow.Machine
import Dataflow.Primitives

/-! The engine runs a program one step at a time. While it is idle, a step
takes the first ready task from the queue: a primitive runs to its end, and a
function starts and executes its first command. While a function is running, a
step executes its next command, or releases its cells once the body is done. -/
namespace Dataflow

structure Engine (σ : Type) where
  program : Program
  /-- State of the primitives. -/
  host : σ
  policy : ReadPolicy
  /-- Number of steps that made progress. -/
  steps : UInt64
  store : Store
  queue : Queue
  /-- The function task that is running. Without one the engine is idle. -/
  frame : Option Frame

/-- What a step did. -/
inductive Step where
  | primitive (task : String)
  | command (task : String) (position : UInt64)
  | finished (task : String)
  /-- No pending task is ready. -/
  | stalled (pending : Nat)
  /-- Nothing is pending. -/
  | done
deriving DecidableEq

/-- Whether the engine may go on. -/
def Step.madeProgress : Step → Bool
  | .stalled _ => false
  | .done => false
  | _ => true

/-- Why a step does not complete. -/
inductive Failure where
  | error (error : Error)
  /-- The running frame has a call that no run could have produced. -/
  | unsoundCall
deriving DecidableEq

/-- How a run ends. -/
inductive RunOutcome where
  | completed (steps : UInt64)
  | stalled (steps : UInt64) (pending : Nat)
deriving DecidableEq

/-- What a task's name stands for. -/
inductive Target where
  | primitive (key : String)
  | function
deriving DecidableEq

/-- A marked name means the primitive if there is one, then the function of
that name. A name without marker means the function first. -/
def Target.resolve (provided : String → Bool) (program : Program) (name : String) : Option Target :=
  match Primitives.key? name with
  | some key =>
    if provided key then some (.primitive key)
    else if program.contains name then some .function
    else none
  | none =>
    if program.contains name then some .function
    else if provided name then some (.primitive name)
    else none

namespace Engine

/-- An answer and the engine after it. A failure keeps what was done before. -/
abbrev Outcome (σ : Type) := Except Failure Step × Engine σ

/-- The function that is run when no other is asked for. -/
def entryPoint : String := "#main"

/-- An idle engine without tasks. -/
def ofProgram (program : Program) (host : σ) : Engine σ :=
  ⟨program, host, .lenient, 0, .empty, .empty, none⟩

/-- Enqueue a task without cells. -/
def seed (engine : Engine σ) (name : String) : Engine σ :=
  { engine with queue := engine.queue.push (.named name) }

def setPolicy (engine : Engine σ) (policy : ReadPolicy) : Engine σ :=
  { engine with policy := policy }

def isIdle (engine : Engine σ) : Bool := engine.frame.isNone

def fail (engine : Engine σ) (error : Error) : Outcome σ :=
  (.error (.error error), engine)

/-- Count a step that made progress. -/
def progress (engine : Engine σ) (step : Step) : Outcome σ :=
  (.ok step, { engine with steps := engine.steps + 1 })

/-- Drop the references of a task that is over and sweep the store. -/
def retire (engine : Engine σ) (task : Task) : Engine σ :=
  { engine with store := (engine.store.release task.cells).collect }

/-- The engine as far as a command can change it. -/
def machine (engine : Engine σ) (frame : Frame) : Machine :=
  ⟨frame, engine.store, engine.queue⟩

def withMachine (engine : Engine σ) (machine : Machine) : Engine σ :=
  { engine with frame := some machine.frame, store := machine.store, queue := machine.queue }

/-- Execute the next command of the running function, or finish it. -/
def advance (engine : Engine σ) (frame : Frame) : Outcome σ :=
  match engine.program.get? frame.label with
  | none => engine.fail (.unknownFunction frame.label)
  | some function =>
    match function.commands[frame.position.toNat]? with
    | none =>
      ({ engine with frame := none }.retire frame.task).progress (.finished frame.label)
    | some command =>
      match (engine.machine frame).execute engine.policy command with
      | .ok machine =>
        let moved := { machine.frame with position := frame.position + 1 }
        (engine.withMachine { machine with frame := moved }).progress
          (.command frame.label frame.position)
      | .error (.fault fault, machine) =>
        (engine.withMachine machine).fail (.command frame.label frame.position command fault)
      | .error (.unsoundCall, machine) => (.error .unsoundCall, engine.withMachine machine)

/-- Bind the results of a primitive to the outputs of its task. -/
def settle (engine : Engine σ) (task : Task) (results : List Value) : Outcome σ :=
  if results.length < task.outputs.length then
    engine.fail (.primitiveFailed task.label
      (.tooFewResults results.length task.outputs.length))
  else
    match engine.store.bindAll (task.outputs.zip results) with
    | .error (fault, store) =>
      { engine with store := store }.fail (.dispatch task.label fault)
    | .ok store => ({ engine with store := store }.retire task).progress (.primitive task.label)

/-- Run a primitive on the values of a task's inputs. -/
def invoke (primitives : Primitives σ) (engine : Engine σ) (key : String) (task : Task) :
    Outcome σ :=
  match engine.store.readAll engine.policy task.inputs with
  | .error fault => engine.fail (.dispatch task.label fault)
  | .ok values =>
    match primitives.invoke engine.host key values with
    | (.error message, host) =>
      { engine with host := host }.fail (.primitiveFailed task.label (.refused message))
    | (.ok results, host) => { engine with host := host }.settle task results

/-- Run a task that has left the queue. -/
def dispatch (primitives : Primitives σ) (engine : Engine σ) (task : Task) : Outcome σ :=
  match Target.resolve (primitives.provides engine.host) engine.program task.label with
  | none => engine.fail (.unknownFunction task.label)
  | some (.primitive key) => engine.invoke primitives key task
  | some .function =>
    let frame := Frame.start task
    { engine with frame := some frame }.advance frame

/-- Take the first ready task from the queue and run it. -/
def schedule (primitives : Primitives σ) (engine : Engine σ) : Outcome σ :=
  if engine.queue.isEmpty then (.ok .done, engine)
  else
    match engine.queue.select engine.store with
    | .stalled _ => (.ok (.stalled engine.queue.size), engine)
    | .undecided _ task fault => engine.fail (.dispatch task.label fault)
    | .ready skipped task later =>
      { engine with queue := ⟨skipped ++ later⟩ }.dispatch primitives task

/-- Do one unit of work. -/
def step (primitives : Primitives σ) (engine : Engine σ) : Outcome σ :=
  match engine.frame with
  | some frame => engine.advance frame
  | none => engine.schedule primitives

/-- Step until the engine cannot go on. The result is `none` if that takes more
steps than there is fuel. -/
def run (primitives : Primitives σ) :
    Nat → Engine σ → Option (Except Failure RunOutcome × Engine σ)
  | 0, _ => none
  | fuel + 1, engine =>
    match engine.step primitives with
    | (.error failure, after) => some (.error failure, after)
    | (.ok .done, after) => some (.ok (.completed after.steps), after)
    | (.ok (.stalled pending), after) => some (.ok (.stalled after.steps pending), after)
    | (.ok _, after) => after.run primitives fuel

end Engine

end Dataflow
