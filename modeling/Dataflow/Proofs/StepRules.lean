import Dataflow.Proofs.CommandRules
import Dataflow.Proofs.EngineAccounts

/-! Steps that complete, as rules. A running function executes a command by the rule of
that command, or ends. A task that has left the queue is run by a primitive, or starts a
function that goes on at once. Everything else a step can do is a failure, or finds that
no task is ready. -/
namespace Dataflow.Engine

/-- The running function goes on. -/
inductive Advances (engine : Engine σ) (frame : Frame) : Step → Engine σ → Prop where
  | finish {function : Function} (found : engine.program.get? frame.label = some function)
      (ended : function.commands[frame.position.toNat]? = none) :
      Advances engine frame (.finished frame.label)
        { engine with
          frame := none
          store := (engine.store.release frame.task.cells).collect
          steps := engine.steps + 1 }
  | command {function : Function} {command : Command} {machine : Machine}
      (found : engine.program.get? frame.label = some function)
      (here : function.commands[frame.position.toNat]? = some command)
      (rule : Machine.Executes engine.policy (engine.machine frame) command machine) :
      Advances engine frame (.command frame.label frame.position)
        { engine with
          frame := some { machine.frame with position := frame.position + 1 }
          store := machine.store
          queue := machine.queue
          steps := engine.steps + 1 }

/-- A task that has left the queue is run, at least by one step. -/
inductive Dispatches (primitives : Primitives σ) (engine : Engine σ) (task : Task) :
    Step → Engine σ → Prop where
  | primitive {key : String} {values results : List Value} {host : σ} {store : Store}
      (target : Target.resolve (primitives.provides engine.host) engine.program task.label =
        some (.primitive key))
      (read : engine.store.readAll engine.policy task.inputs = .ok values)
      (replied : primitives.invoke engine.host key values = (.ok results, host))
      (enough : task.outputs.length ≤ results.length)
      (bound : engine.store.bindAll (task.outputs.zip results) = .ok store) :
      Dispatches primitives engine task (.primitive task.label)
        { engine with
          host := host
          store := (store.release task.cells).collect
          steps := engine.steps + 1 }
  | function {step : Step} {after : Engine σ}
      (target : Target.resolve (primitives.provides engine.host) engine.program task.label =
        some .function)
      (advances : Advances { engine with frame := some (.start task) } (.start task) step after) :
      Dispatches primitives engine task step after

/-- A step completes. -/
inductive Steps (primitives : Primitives σ) (engine : Engine σ) : Step → Engine σ → Prop where
  | advance {frame : Frame} {step : Step} {after : Engine σ} (running : engine.frame = some frame)
      (advances : Advances engine frame step after) : Steps primitives engine step after
  | dispatch {skipped later : List Task} {task : Task} {step : Step} {after : Engine σ}
      (idle : engine.frame = none)
      (chosen : engine.queue.select engine.store = .ready skipped task later)
      (dispatches : Dispatches primitives { engine with queue := ⟨skipped ++ later⟩ } task step
        after) : Steps primitives engine step after
  | halt {skipped : List Task} (idle : engine.frame = none)
      (nothing : engine.queue.select engine.store = .stalled skipped) :
      Steps primitives engine
        (if engine.queue.isEmpty then .done else .stalled engine.queue.size) engine

variable {primitives : Primitives σ} {engine after : Engine σ} {frame : Frame} {task : Task}
  {step : Step}

/-- The books of an engine that runs a frame are those of its machine. -/
theorem machine_kept {calls : Nat} {dropped : List CellId} (running : engine.frame = some frame)
    (kept : engine.Kept calls dropped) : (engine.machine frame).Kept calls dropped := by
  rw [Kept, running] at kept
  exact kept

theorem advance_ok_iff :
    engine.advance frame = (.ok step, after) ↔ Advances engine frame step after := by
  constructor
  · intro advanced
    unfold advance at advanced
    split at advanced
    · cases advanced
    · rename_i function found
      split at advanced
      · rename_i ended
        cases advanced
        exact .finish found ended
      · rename_i command here
        split at advanced
        · rename_i machine executed
          cases advanced
          exact .command found here (Machine.execute_ok_iff.mp executed)
        · cases advanced
        · cases advanced
  · intro advances
    cases advances with
    | finish found ended =>
      simp only [advance, found, ended]
      rfl
    | command found here rule =>
      simp only [advance, found, here, Machine.execute_ok_iff.mpr rule]
      rfl

theorem dispatch_ok_iff :
    engine.dispatch primitives task = (.ok step, after) ↔
      Dispatches primitives engine task step after := by
  constructor
  · intro dispatched
    unfold dispatch at dispatched
    split at dispatched
    · cases dispatched
    · rename_i key target
      unfold invoke at dispatched
      split at dispatched
      · cases dispatched
      · rename_i values read
        split at dispatched
        · cases dispatched
        · rename_i results host replied
          unfold settle at dispatched
          split at dispatched
          · cases dispatched
          · rename_i enough
            split at dispatched
            · cases dispatched
            · rename_i store bound
              cases dispatched
              exact .primitive target read replied (Nat.le_of_not_lt enough) bound
    · rename_i target
      exact .function target (advance_ok_iff.mp dispatched)
  · intro dispatches
    cases dispatches with
    | primitive target read replied enough bound =>
      simp only [dispatch, target, invoke, read, replied, settle, Nat.not_lt.mpr enough, if_false,
        bound]
      rfl
    | function target advances =>
      simp only [dispatch, target]
      exact advance_ok_iff.mpr advances

/-- A step completes exactly as the rules say. -/
theorem step_ok_iff :
    engine.step primitives = (.ok step, after) ↔ Steps primitives engine step after := by
  constructor
  · intro stepped
    unfold Engine.step at stepped
    split at stepped
    · rename_i frame running
      exact .advance running (advance_ok_iff.mp stepped)
    · rename_i idle
      unfold schedule at stepped
      split at stepped
      · rename_i empty
        have nothing : engine.queue.select engine.store = .stalled [] := by
          rw [Queue.select, List.isEmpty_iff.mp empty, Selection.ofTasks]
        have halts : Steps primitives engine _ engine := .halt idle nothing
        cases stepped
        rwa [if_pos empty] at halts
      · rename_i waiting
        split at stepped
        · rename_i skipped nothing
          have halts : Steps primitives engine _ engine := .halt idle nothing
          cases stepped
          rwa [if_neg waiting] at halts
        · cases stepped
        · rename_i skipped task later chosen
          exact .dispatch idle chosen (dispatch_ok_iff.mp stepped)
  · intro steps
    cases steps with
    | advance running advances =>
      simp only [Engine.step, running]
      exact advance_ok_iff.mpr advances
    | @dispatch skipped later task _ _ idle chosen dispatches =>
      have waiting : ¬ engine.queue.isEmpty = true := by
        rw [Queue.isEmpty, (Selection.ready_eq chosen).1]
        simp
      simp only [Engine.step, idle, schedule, if_neg waiting, chosen]
      have dispatched := dispatch_ok_iff.mpr dispatches
      rwa [idle] at dispatched
    | halt idle nothing =>
      simp only [Engine.step, idle, schedule, nothing]
      split <;> rfl

/-- A task that is run makes progress. -/
theorem dispatches_progress (dispatches : Dispatches primitives engine task step after) :
    step.madeProgress = true := by
  cases dispatches with
  | primitive target read replied enough bound => rfl
  | function target advances => cases advances <;> rfl

/-- An engine that makes no progress is idle, has no task that is ready, and stays as
it is. -/
theorem halted_step (answer : (engine.step primitives).1 = .ok step)
    (halted : step.madeProgress = false) :
    engine.frame = none ∧ (∃ skipped, engine.queue.select engine.store = .stalled skipped) ∧
      step = (if engine.queue.isEmpty then .done else .stalled engine.queue.size) ∧
      (engine.step primitives).2 = engine := by
  obtain ⟨after, stepped⟩ : ∃ after, engine.step primitives = (.ok step, after) :=
    ⟨_, Prod.ext answer rfl⟩
  rw [stepped]
  cases step_ok_iff.mp stepped with
  | advance running advances => cases advances <;> cases halted
  | dispatch idle chosen dispatches => simp [dispatches_progress dispatches] at halted
  | halt idle nothing => exact ⟨idle, ⟨_, nothing⟩, rfl, rfl⟩

/-! ### Runs -/

/-- A run whose first step makes progress goes on from there. -/
theorem run_progress {fuel : Nat} (steps : Steps primitives engine step after)
    (progress : step.madeProgress = true) :
    engine.run primitives (fuel + 1) = after.run primitives fuel := by
  rw [run, step_ok_iff.mpr steps]
  cases step with
  | primitive task => rfl
  | command task position => rfl
  | finished task => rfl
  | stalled pending => cases progress
  | done => cases progress

/-- A run whose first step fails or makes no progress ends with it. -/
theorem run_ends_or_goes_on (primitives : Primitives σ) (engine : Engine σ) :
    (∃ result, ∀ fuel, engine.run primitives (fuel + 1) = some result) ∨
      ∃ step after, Steps primitives engine step after ∧ step.madeProgress = true := by
  cases stepped : engine.step primitives with
  | mk answer after =>
    cases answer with
    | error failure => exact .inl ⟨_, fun fuel => by rw [run, stepped]⟩
    | ok step =>
      cases step with
      | stalled pending => exact .inl ⟨_, fun fuel => by rw [run, stepped]⟩
      | done => exact .inl ⟨_, fun fuel => by rw [run, stepped]⟩
      | _ => exact .inr ⟨_, after, step_ok_iff.mp stepped, rfl⟩

/-- More fuel changes nothing about a run that has ended. -/
theorem run_mono {fuel more : Nat} {result : Except Failure RunOutcome × Engine σ}
    (ran : engine.run primitives fuel = some result) (enough : fuel ≤ more) :
    engine.run primitives more = some result := by
  induction fuel generalizing engine more with
  | zero => cases ran
  | succ fuel ih =>
    obtain ⟨spare, rfl⟩ := Nat.exists_eq_add_of_le' enough
    rcases run_ends_or_goes_on primitives engine with ⟨early, ends⟩ | ⟨step, after, steps, progress⟩
    · rw [ends] at ran
      rw [← Nat.add_assoc, ends, ran]
    · rw [run_progress steps progress] at ran
      rw [← Nat.add_assoc, run_progress steps progress]
      exact ih ran (Nat.le_add_left _ _)

end Dataflow.Engine
