import Dataflow.Engine
import Dataflow.Event

/-! The journal of an operation: the events it reports, in order, as a function
of the state in which it starts. Operations themselves do not depend on it. -/
namespace Dataflow

namespace Store

def decrefJournal (store : Store) (id : CellId) : List Event :=
  if store.refs? id = some 0 then [.unreferenced id] else []

def releaseJournal (store : Store) : List CellId → List Event
  | [] => []
  | id :: rest =>
    match store.decref id with
    | .ok dropped => store.decrefJournal id ++ dropped.releaseJournal rest
    | .error _ => .missing id :: store.releaseJournal rest

def collectJournal (store : Store) : List Event :=
  store.garbage.map .garbage

end Store

/-- Only a completed call is reported, once its copy is in the queue. -/
def Machine.journal (policy : ReadPolicy) (command : Command) (machine : Machine) : List Event :=
  match command with
  | .pushFunc =>
    match machine.execute policy command with
    | .ok after => [.enqueue after.frame.call.task]
    | .error _ => []
  | _ => []

namespace Engine

def retireJournal (store : Store) (task : Task) : List Event :=
  let released := store.release task.cells
  store.releaseJournal task.cells ++ released.collectJournal ++
    [.finished task released.garbage.length]

def advanceJournal (engine : Engine σ) (frame : Frame) : List Event :=
  match engine.program.get? frame.label with
  | none => []
  | some function =>
    match function.commands[frame.position.toNat]? with
    | none => retireJournal engine.store frame.task
    | some command =>
      .exec frame.label frame.position command ::
        (engine.machine frame).journal engine.policy command

/-- A primitive is reported once it has returned enough results. -/
def invokeJournal (primitives : Primitives σ) (engine : Engine σ) (key : String) (task : Task) :
    List Event :=
  match engine.store.readAll engine.policy task.inputs with
  | .error _ => []
  | .ok values =>
    match primitives.invoke engine.host key values with
    | (.error _, _) => []
    | (.ok results, _) =>
      if results.length < task.outputs.length then []
      else
        .returned key values results ::
          match engine.store.bindAll (task.outputs.zip results) with
          | .error _ => []
          | .ok store => retireJournal store task

def dispatchJournal (primitives : Primitives σ) (engine : Engine σ) (task : Task) : List Event :=
  .running task ::
    match Target.resolve (primitives.provides engine.host) engine.program task.label with
    | none => []
    | some (.primitive key) => engine.invokeJournal primitives key task
    | some .function => engine.advanceJournal (.start task)

def scheduleJournal (primitives : Primitives σ) (engine : Engine σ) : List Event :=
  let selection := engine.queue.select engine.store
  selection.skipped.map .skip ++
    match selection with
    | .ready skipped task later =>
      { engine with queue := ⟨skipped ++ later⟩ }.dispatchJournal primitives task
    | _ => []

/-- The events of the next step. -/
def stepJournal (primitives : Primitives σ) (engine : Engine σ) : List Event :=
  match engine.frame with
  | some frame => engine.advanceJournal frame
  | none => engine.scheduleJournal primitives

end Engine

end Dataflow
