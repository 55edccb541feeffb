import Dataflow.Engine

/-! The history of an engine is the list of requests made of it since it was
new. A step that fails is a request like any other: what comes after it goes on
from the state it left. Beside the state, a history determines which roles were
dropped on the way, that is, cells that a task or a call listed and that nobody
will release. -/
namespace Dataflow

/-- What the owner of an engine may ask of it. -/
inductive Request where
  | seed (name : String)
  | setPolicy (policy : ReadPolicy)
  | step
deriving DecidableEq

/-- The cells of the call that no enqueued copy of it refers to yet. -/
def Call.unshared (call : Call) : List CellId :=
  call.task.inputs.drop call.sharedInputs.toNat ++
    call.task.outputs.drop call.sharedOutputs.toNat

/-- A new call forgets the cells that the present one lists and has not handed
to a task. No other command drops a role. -/
def Frame.commandDrops (frame : Frame) : Command → List CellId
  | .descCall => frame.call.unshared
  | _ => []

/-- A task that has left the queue and fails forfeits all of its cells. -/
def Task.forfeit (task : Task) : Except Failure Step → List CellId
  | .error _ => task.cells
  | .ok _ => []

namespace Engine

/-- The answer to a request, where it has one, and the engine after it. -/
def serve (primitives : Primitives σ) (engine : Engine σ) :
    Request → Option (Except Failure Step) × Engine σ
  | .seed name => (none, engine.seed name)
  | .setPolicy policy => (none, engine.setPolicy policy)
  | .step =>
    let (answer, after) := engine.step primitives
    (some answer, after)

/-- The engine after all requests, in order. -/
def after (primitives : Primitives σ) : Engine σ → List Request → Engine σ
  | engine, [] => engine
  | engine, request :: rest => (engine.serve primitives request).2.after primitives rest

theorem after_append (primitives : Primitives σ) (engine : Engine σ)
    (requests later : List Request) :
    engine.after primitives (requests ++ later) =
      (engine.after primitives requests).after primitives later := by
  induction requests generalizing engine with
  | nil => rfl
  | cons request rest ih => exact ih _

/-- The end of a function forgets its call as a new call would. -/
def advanceDrops (engine : Engine σ) (frame : Frame) : List CellId :=
  match engine.program.get? frame.label with
  | none => []
  | some function =>
    match function.commands[frame.position.toNat]? with
    | none => frame.call.unshared
    | some command => frame.commandDrops command

/-- A name that stands for nothing is a failure of its task. -/
def dispatchDrops (primitives : Primitives σ) (engine : Engine σ) (task : Task) : List CellId :=
  match Target.resolve (primitives.provides engine.host) engine.program task.label with
  | none => task.cells
  | some (.primitive key) => task.forfeit (engine.invoke primitives key task).1
  | some .function => engine.advanceDrops (.start task)

def scheduleDrops (primitives : Primitives σ) (engine : Engine σ) : List CellId :=
  match engine.queue.select engine.store with
  | .ready skipped task later =>
    { engine with queue := ⟨skipped ++ later⟩ }.dispatchDrops primitives task
  | _ => []

/-- The roles that the next step drops. -/
def stepDrops (primitives : Primitives σ) (engine : Engine σ) : List CellId :=
  match engine.frame with
  | some frame => engine.advanceDrops frame
  | none => engine.scheduleDrops primitives

/-- The roles dropped by all requests, in order. -/
def dropped (primitives : Primitives σ) : Engine σ → List Request → List CellId
  | _, [] => []
  | engine, .step :: rest =>
    engine.stepDrops primitives ++ (engine.serve primitives .step).2.dropped primitives rest
  | engine, request :: rest => (engine.serve primitives request).2.dropped primitives rest

private theorem advance_program (engine : Engine σ) (frame : Frame) :
    (engine.advance frame).2.program = engine.program := by
  unfold advance
  split
  · rfl
  · split
    · rfl
    · split <;> rfl

private theorem invoke_program (primitives : Primitives σ) (engine : Engine σ) (key : String)
    (task : Task) : (engine.invoke primitives key task).2.program = engine.program := by
  unfold invoke
  split
  · rfl
  · split
    · rfl
    · unfold settle
      split
      · rfl
      · split <;> rfl

theorem step_program (primitives : Primitives σ) (engine : Engine σ) :
    (engine.step primitives).2.program = engine.program := by
  unfold step
  split
  · exact advance_program engine _
  · unfold schedule
    split
    · rfl
    · split
      · rfl
      · rfl
      · unfold dispatch
        split
        · rfl
        · exact invoke_program primitives _ _ _
        · exact advance_program _ _

/-- No request changes the program. -/
theorem after_program (primitives : Primitives σ) (engine : Engine σ) (requests : List Request) :
    (engine.after primitives requests).program = engine.program := by
  induction requests generalizing engine with
  | nil => rfl
  | cons request rest ih =>
    rw [after, ih]
    cases request with
    | seed name => rfl
    | setPolicy policy => rfl
    | step => exact step_program primitives engine

/-- What every request keeps holds after every history. The property may speak
of the number of step requests so far and of the roles dropped so far; a step
has to keep it only while fewer than `limit` were made. -/
theorem holds_after (primitives : Primitives σ) (limit : Nat)
    (Holds : Nat → List CellId → Engine σ → Prop)
    (seeded : ∀ {calls past engine} name, Holds calls past engine →
      Holds calls past (engine.seed name))
    (retuned : ∀ {calls past engine} policy, Holds calls past engine →
      Holds calls past (engine.setPolicy policy))
    (stepped : ∀ {calls past engine}, calls < limit → Holds calls past engine →
      Holds (calls + 1) (past ++ engine.stepDrops primitives) (engine.step primitives).2)
    {calls : Nat} {past : List CellId} {engine : Engine σ} (holds : Holds calls past engine)
    (requests : List Request) (few : calls + requests.count .step ≤ limit) :
    Holds (calls + requests.count .step) (past ++ engine.dropped primitives requests)
      (engine.after primitives requests) := by
  induction requests generalizing calls past engine with
  | nil => simpa [dropped, after] using holds
  | cons request rest ih =>
    cases request with
    | seed name =>
      have within : calls + rest.count .step ≤ limit := by simpa using few
      simpa [dropped, after, serve] using ih (seeded name holds) within
    | setPolicy policy =>
      have within : calls + rest.count .step ≤ limit := by simpa using few
      simpa [dropped, after, serve] using ih (retuned policy holds) within
    | step =>
      rw [List.count_cons_self] at few ⊢
      have next := ih (stepped (by omega) holds) (by omega)
      rw [dropped, after, ← List.append_assoc,
        show calls + (rest.count .step + 1) = calls + 1 + rest.count .step by omega]
      exact next

end Engine

end Dataflow
