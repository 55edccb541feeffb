import Dataflow.Proofs.StepRules

/-! Steps that fail, as rules. The running function may have lost its body, or its command
stops. A task that has left the queue may stand for nothing, or its primitive cannot read,
refuses, returns too little or cannot bind. And it may be impossible to tell whether a
pending task is ready. Together with the rules of steps that complete, this is everything
that a step can do. -/
namespace Dataflow

/-- The failure of a step whose command stops. -/
def Stop.failure (frame : Frame) (command : Command) : Stop → Failure
  | .fault reason => .error (.command frame.label frame.position command reason)
  | .unsoundCall => .unsoundCall

namespace Engine

/-- The running function cannot go on. -/
inductive Breaks (engine : Engine σ) (frame : Frame) : Failure → Engine σ → Prop where
  | unknown (absent : engine.program.get? frame.label = none) :
      Breaks engine frame (.error (.unknownFunction frame.label)) engine
  | stop {function : Function} {command : Command} {stop : Stop} {left : Machine}
      (found : engine.program.get? frame.label = some function)
      (here : function.commands[frame.position.toNat]? = some command)
      (stopped : (engine.machine frame).execute engine.policy command = .error (stop, left)) :
      Breaks engine frame (stop.failure frame command) (engine.withMachine left)

/-- A primitive cannot do its task. -/
inductive Balks (primitives : Primitives σ) (engine : Engine σ) (key : String) (task : Task) :
    Error → Engine σ → Prop where
  | unread {fault : Fault} (read : engine.store.readAll engine.policy task.inputs = .error fault) :
      Balks primitives engine key task (.dispatch task.label fault) engine
  | refused {values : List Value} {message : String} {host : σ}
      (read : engine.store.readAll engine.policy task.inputs = .ok values)
      (replied : primitives.invoke engine.host key values = (.error message, host)) :
      Balks primitives engine key task (.primitiveFailed task.label (.refused message))
        { engine with host := host }
  | short {values results : List Value} {host : σ}
      (read : engine.store.readAll engine.policy task.inputs = .ok values)
      (replied : primitives.invoke engine.host key values = (.ok results, host))
      (few : results.length < task.outputs.length) :
      Balks primitives engine key task
        (.primitiveFailed task.label (.tooFewResults results.length task.outputs.length))
        { engine with host := host }
  | unbound {values results : List Value} {host : σ} {fault : Fault} {store : Store}
      (read : engine.store.readAll engine.policy task.inputs = .ok values)
      (replied : primitives.invoke engine.host key values = (.ok results, host))
      (enough : task.outputs.length ≤ results.length)
      (bound : engine.store.bindAll (task.outputs.zip results) = .error (fault, store)) :
      Balks primitives engine key task (.dispatch task.label fault)
        { engine with host := host, store := store }

/-- A task that has left the queue cannot be run, or breaks at its first command. -/
inductive Refuses (primitives : Primitives σ) (engine : Engine σ) (task : Task) :
    Failure → Engine σ → Prop where
  | unknown (target : Target.resolve (primitives.provides engine.host) engine.program task.label =
        none) :
      Refuses primitives engine task (.error (.unknownFunction task.label)) engine
  | primitive {key : String} {error : Error} {after : Engine σ}
      (target : Target.resolve (primitives.provides engine.host) engine.program task.label =
        some (.primitive key))
      (balks : Balks primitives engine key task error after) :
      Refuses primitives engine task (.error error) after
  | function {failure : Failure} {after : Engine σ}
      (target : Target.resolve (primitives.provides engine.host) engine.program task.label =
        some .function)
      (breaks : Breaks { engine with frame := some (.start task) } (.start task) failure after) :
      Refuses primitives engine task failure after

/-- A step fails. -/
inductive Fails (primitives : Primitives σ) (engine : Engine σ) : Failure → Engine σ → Prop where
  | advance {frame : Frame} {failure : Failure} {after : Engine σ}
      (running : engine.frame = some frame) (breaks : Breaks engine frame failure after) :
      Fails primitives engine failure after
  | dispatch {skipped later : List Task} {task : Task} {failure : Failure} {after : Engine σ}
      (idle : engine.frame = none)
      (chosen : engine.queue.select engine.store = .ready skipped task later)
      (refuses : Refuses primitives { engine with queue := ⟨skipped ++ later⟩ } task failure
        after) : Fails primitives engine failure after
  | undecided {skipped : List Task} {task : Task} {fault : Fault} (idle : engine.frame = none)
      (chosen : engine.queue.select engine.store = .undecided skipped task fault) :
      Fails primitives engine (.error (.dispatch task.label fault)) engine

variable {primitives : Primitives σ} {engine after : Engine σ} {frame : Frame} {task : Task}
  {failure : Failure} {key : String}

theorem advance_error_iff :
    engine.advance frame = (.error failure, after) ↔ Breaks engine frame failure after := by
  constructor
  · intro advanced
    unfold advance at advanced
    split at advanced
    · rename_i absent
      cases advanced
      exact .unknown absent
    · rename_i function found
      split at advanced
      · cases advanced
      · rename_i command here
        split at advanced
        · cases advanced
        · rename_i fault left stopped
          cases advanced
          exact .stop found here stopped
        · rename_i left stopped
          cases advanced
          exact .stop found here stopped
  · intro breaks
    cases breaks with
    | unknown absent =>
      simp only [advance, absent]
      rfl
    | @stop function command stop left found here stopped =>
      cases stop with
      | fault fault =>
        simp only [advance, found, here, stopped]
        rfl
      | unsoundCall =>
        simp only [advance, found, here, stopped]
        rfl

theorem invoke_error_iff :
    engine.invoke primitives key task = (.error failure, after) ↔
      ∃ error, failure = .error error ∧ Balks primitives engine key task error after := by
  constructor
  · intro invoked
    unfold invoke at invoked
    split at invoked
    · rename_i fault read
      cases invoked
      exact ⟨_, rfl, .unread read⟩
    · rename_i values read
      split at invoked
      · rename_i message host replied
        cases invoked
        exact ⟨_, rfl, .refused read replied⟩
      · rename_i results host replied
        unfold settle at invoked
        split at invoked
        · rename_i few
          cases invoked
          exact ⟨_, rfl, .short read replied few⟩
        · rename_i enough
          split at invoked
          · rename_i fault store bound
            cases invoked
            exact ⟨_, rfl, .unbound read replied (Nat.le_of_not_lt enough) bound⟩
          · cases invoked
  · rintro ⟨error, rfl, balks⟩
    cases balks with
    | unread read =>
      simp only [invoke, read]
      rfl
    | refused read replied =>
      simp only [invoke, read, replied]
      rfl
    | short read replied few =>
      simp only [invoke, read, replied, settle, few, if_true]
      rfl
    | unbound read replied enough bound =>
      simp only [invoke, read, replied, settle, Nat.not_lt.mpr enough, if_false, bound]
      rfl

theorem dispatch_error_iff :
    engine.dispatch primitives task = (.error failure, after) ↔
      Refuses primitives engine task failure after := by
  constructor
  · intro dispatched
    unfold dispatch at dispatched
    split at dispatched
    · rename_i target
      cases dispatched
      exact .unknown target
    · rename_i key target
      obtain ⟨error, rfl, balks⟩ := invoke_error_iff.mp dispatched
      exact .primitive target balks
    · rename_i target
      exact .function target (advance_error_iff.mp dispatched)
  · intro refuses
    cases refuses with
    | unknown target =>
      simp only [dispatch, target]
      rfl
    | primitive target balks =>
      simp only [dispatch, target]
      exact invoke_error_iff.mpr ⟨_, rfl, balks⟩
    | function target breaks =>
      simp only [dispatch, target]
      exact advance_error_iff.mpr breaks

/-- A step fails exactly as the rules say. -/
theorem step_error_iff :
    engine.step primitives = (.error failure, after) ↔ Fails primitives engine failure after := by
  constructor
  · intro stepped
    unfold Engine.step at stepped
    split at stepped
    · rename_i frame running
      exact .advance running (advance_error_iff.mp stepped)
    · rename_i idle
      unfold schedule at stepped
      split at stepped
      · cases stepped
      · split at stepped
        · cases stepped
        · rename_i skipped task fault chosen
          cases stepped
          exact .undecided idle chosen
        · rename_i skipped task later chosen
          exact .dispatch idle chosen (dispatch_error_iff.mp stepped)
  · intro fails
    -- a queue in which the scheduler finds something is not empty
    have waiting : engine.queue.tasks ≠ [] → ¬ engine.queue.isEmpty = true := fun some empty =>
      some (List.isEmpty_iff.mp empty)
    cases fails with
    | advance running breaks =>
      simp only [Engine.step, running]
      exact advance_error_iff.mpr breaks
    | @dispatch skipped later task _ _ idle chosen refuses =>
      have some := waiting (by rw [(Selection.ready_eq chosen).1]; simp)
      simp only [Engine.step, idle, schedule, if_neg some, chosen]
      have dispatched := dispatch_error_iff.mpr refuses
      rwa [idle] at dispatched
    | undecided idle chosen =>
      have some := waiting fun empty => by
        rw [Queue.select, empty] at chosen
        cases chosen
      simp only [Engine.step, idle, schedule, if_neg some, chosen]
      rfl

end Engine

end Dataflow
