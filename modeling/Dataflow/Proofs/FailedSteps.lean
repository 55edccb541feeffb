import Dataflow.Primitives.Scripted
import Dataflow.Proofs.NameProvenance
import Dataflow.Proofs.StalledTasks

/-! What a step that fails leaves. Commands and primitives work in stages: an operand is popped
before it is looked at, counts are raised and outputs bound one after the other. A stage can
fail after others are done only for want of a live cell, and in an engine with kept books every
cell that is named is live. So a failed step has not touched the store: it has taken one operand
from the stack at most, or one task from the queue. -/
namespace Dataflow

namespace Engine

/-- What a step that fails leaves of an engine. -/
inductive Aftermath (engine : Engine σ) : Failure → Engine σ → Prop where
  | command {frame : Frame} {command : Command} {fault : Fault} {stack : List Operand}
      (running : engine.frame = some frame)
      (lost : stack = frame.stack ∨ ∃ top, frame.stack = top :: stack) :
      Aftermath engine (.error (.command frame.label frame.position command fault))
        { engine with frame := some { frame with stack := stack } }
  | start {skipped later : List Task} {task : Task} {command : Command} {fault : Fault}
      (idle : engine.frame = none)
      (first : engine.queue.FirstReady engine.store skipped task later) :
      Aftermath engine (.error (.command task.label 0 command fault))
        { engine with queue := ⟨skipped ++ later⟩, frame := some (.start task) }
  | unknown {skipped later : List Task} {task : Task} (idle : engine.frame = none)
      (first : engine.queue.FirstReady engine.store skipped task later) :
      Aftermath engine (.error (.unknownFunction task.label))
        { engine with queue := ⟨skipped ++ later⟩ }
  | primitive {skipped later : List Task} {task : Task} {reason : PrimitiveFailure} {host : σ}
      (idle : engine.frame = none)
      (first : engine.queue.FirstReady engine.store skipped task later) :
      Aftermath engine (.error (.primitiveFailed task.label reason))
        { engine with queue := ⟨skipped ++ later⟩, host := host }

variable {primitives : Primitives σ} {engine after : Engine σ} {frame : Frame} {task : Task}
  {failure : Failure} {calls : Nat} {dropped : List CellId} {function : Function}

/-- A running function that cannot go on has lost its top operand at most. -/
theorem breaks_spares (running : engine.frame = some frame) (kept : engine.Kept calls dropped)
    (few : calls < UInt32.size) (found : engine.program.get? frame.label = some function)
    (breaks : Breaks engine frame failure after) :
    ∃ command fault stack,
      failure = .error (.command frame.label frame.position command fault) ∧
        (stack = frame.stack ∨ ∃ top, frame.stack = top :: stack) ∧
        after = { engine with frame := some { frame with stack := stack } } := by
  have books := machine_kept running kept
  cases breaks with
  | unknown absent => cases absent.symm.trans found
  | @stop called command stop left _ here stopped =>
    have safe := Machine.execute_safe books few engine.policy command
    rw [stopped] at safe
    cases stop with
    | unsoundCall => exact safe.elim
    | fault fault =>
      rcases Machine.execute_spares (Machine.shared_live books) stopped with
        rfl | ⟨top, rest, stack, rfl⟩
      · exact ⟨command, fault, frame.stack, rfl, .inl rfl, rfl⟩
      · exact ⟨command, fault, rest, rfl, .inr ⟨top, stack⟩, rfl⟩

/-- A primitive that fails was called, and has bound nothing. -/
theorem balks_spares {key : String} {error : Error}
    (balks : Balks primitives engine key task error after)
    (inHand : Accounts calls (dropped ++ task.cells) engine.store engine.queue none)
    (ready : task.isReady engine.store = .ok true) :
    ∃ reason host, error = .primitiveFailed task.label reason ∧
      after = { engine with host := host } := by
  cases balks with
  | unread read =>
    obtain ⟨values, done⟩ := Store.readAll_bound (Store.allBound_iff.mp ready) engine.policy
    cases done.symm.trans read
  | refused read replied => exact ⟨_, _, rfl, rfl⟩
  | short read replied few => exact ⟨_, _, rfl, rfl⟩
  | @unbound values results host fault store read replied enough bound =>
    obtain ⟨other, done, -⟩ := accounts_bindOutputs results inHand
    cases done.symm.trans bound

/-- A step that fails leaves the store alone. -/
theorem fails_aftermath {Given : String → Prop} (kept : engine.Kept calls dropped)
    (few : calls < UInt32.size) (traced : engine.Traced Given)
    (fails : Fails primitives engine failure after) : engine.Aftermath failure after := by
  cases fails with
  | @advance frame _ _ running breaks =>
    obtain ⟨function, member, within⟩ := traced.frame frame running
    obtain ⟨command, fault, stack, rfl, lost, rfl⟩ :=
      breaks_spares running kept few (within_get? member within) breaks
    exact .command running lost
  | undecided idle chosen =>
    apply absurd chosen
    apply Selection.not_undecided
    intro queued member id input
    exact queued_live kept member (List.mem_append.mpr (.inl input))
  | @dispatch skipped later task _ _ idle chosen refuses =>
    obtain ⟨inHand, ready⟩ := take_ready idle kept chosen
    obtain ⟨waiting, name, label, -⟩ := taken_traced traced chosen
    have first := Queue.select_ready_iff.mp chosen
    cases refuses with
    | unknown target => exact .unknown idle first
    | primitive target balks =>
      obtain ⟨reason, host, rfl, rfl⟩ := balks_spares balks inHand ready
      exact .primitive idle first
    | function target breaks =>
      obtain ⟨function, member, within⟩ := (start_traced waiting label target).frame _ rfl
      obtain ⟨command, fault, stack, rfl, lost, rfl⟩ := breaks_spares rfl (accounts_start inHand)
        few (within_get? member within) breaks
      -- a function starts with an empty stack, so its first command has nothing to take
      rcases lost with rfl | ⟨top, shape⟩
      · exact .start idle first
      · cases shape

/-- A step that fails changes neither the store nor the policy nor the number of steps. If a
function was running, its command faulted, and all that it may have lost is the top operand.
If the engine was idle, the first task that is ready has left the queue. Either it has started
as a function and its first command faulted, or it stands for nothing or its primitive failed,
and then the engine is still idle. -/
theorem failed_step_spares (primitives : Primitives σ) (program : Program) (host : σ)
    (requests : List Request) (few : requests.count .step < UInt32.size) :
    let engine := (ofProgram program host).after primitives requests
    let next := (engine.step primitives).2
    ∀ failure, (engine.step primitives).1 = .error failure →
      (next.steps = engine.steps ∧ next.policy = engine.policy ∧ next.store = engine.store) ∧
      (∀ frame, engine.frame = some frame →
        (∃ command fault,
          failure = .error (.command frame.label frame.position command fault)) ∧
        ∃ stack, (stack = frame.stack ∨ ∃ top, frame.stack = top :: stack) ∧
          next = { engine with frame := some { frame with stack := stack } }) ∧
      (engine.frame = none → ∃ skipped task later,
        engine.queue.FirstReady engine.store skipped task later ∧
        next.queue = ⟨skipped ++ later⟩ ∧
        ((∃ command fault, failure = .error (.command task.label 0 command fault)) ∧
            next.frame = some (.start task) ∨
          (failure = .error (.unknownFunction task.label) ∨
            ∃ reason, failure = .error (.primitiveFailed task.label reason)) ∧
            next.frame = none)) := by
  intro engine next failure failed
  have kept := history_kept primitives program host requests (Nat.le_of_lt few)
  have traced := history_traced primitives program host requests
  have stepped : engine.step primitives = (.error failure, next) := Prod.ext failed rfl
  have aftermath := fails_aftermath kept few traced (step_error_iff.mp stepped)
  generalize next = left at aftermath ⊢
  cases aftermath with
  | @command frame command fault stack running lost =>
    refine ⟨⟨rfl, rfl, rfl⟩, fun other same => ?_, fun idle => ?_⟩
    · cases running.symm.trans same
      exact ⟨⟨command, fault, rfl⟩, stack, lost, rfl⟩
    · cases running.symm.trans idle
  | start idle first =>
    refine ⟨⟨rfl, rfl, rfl⟩, fun frame running => (by cases idle.symm.trans running), fun _ => ?_⟩
    exact ⟨_, _, _, first, rfl, .inl ⟨⟨_, _, rfl⟩, rfl⟩⟩
  | unknown idle first =>
    refine ⟨⟨rfl, rfl, rfl⟩, fun frame running => (by cases idle.symm.trans running), fun _ => ?_⟩
    exact ⟨_, _, _, first, rfl, .inr ⟨.inl rfl, idle⟩⟩
  | primitive idle first =>
    refine ⟨⟨rfl, rfl, rfl⟩, fun frame running => (by cases idle.symm.trans running), fun _ => ?_⟩
    exact ⟨_, _, _, first, rfl, .inr ⟨.inr ⟨_, rfl⟩, idle⟩⟩

/-- The function copies from a cell that has no value. -/
private def spareDemo : Program :=
  .ofFunctions [⟨"f", [.create, .create, .dupl, .assignTop]⟩] (by decide)

/-- Under strict reads the last command faults, and faults again when it is tried again. Each
time it has taken one more operand. -/
theorem failed_step_spares_again :
    let requests := [.seed "f", .setPolicy .strict] ++ List.replicate 4 Request.step
    let engine := (ofProgram spareDemo ()).after (.scripted []) requests
    let next := (engine.step (.scripted [])).2
    requests.count .step < UInt32.size ∧ engine.frame.map (·.stack) = some [.cell 2, .cell 1] ∧
      (engine.step (.scripted [])).1 =
        .error (.error (.command "f" 3 .assignTop (.unboundRead 2))) ∧
      next.store = engine.store ∧ next.frame.map (·.stack) = some [.cell 1] := by
  have spared := failed_step_spares (.scripted []) spareDemo ()
    ([.seed "f", .setPolicy .strict] ++ List.replicate 4 .step) (by decide)
  refine ⟨by decide, rfl, rfl, ?_, rfl⟩
  exact (spared (.error (.command "f" 3 .assignTop (.unboundRead 2))) rfl).1.2.2

end Engine

end Dataflow
