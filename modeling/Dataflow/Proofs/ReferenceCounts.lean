import Dataflow.Primitives.Scripted
import Dataflow.Proofs.EngineAccounts

/-! Reference counts are exact after every history: the count of a live cell is
the number of its roles in the queue and in the running frame, and of those
dropped so far. A release therefore always finds the reference it gives back. -/
namespace Dataflow

/-- The events do not tell of a release without a reference to give back. -/
def Event.Quiet (journal : List Event) : Prop :=
  ∀ id, .unreferenced id ∉ journal ∧ .missing id ∉ journal

namespace Engine

open Event

variable {engine : Engine σ} {calls : Nat} {dropped : List CellId} {frame : Frame} {task : Task}

private theorem quiet_nil : Quiet [] := fun _ => ⟨List.not_mem_nil, List.not_mem_nil⟩

private theorem quiet_cons {event : Event} {journal : List Event}
    (first : ∀ id, event ≠ .unreferenced id ∧ event ≠ .missing id) (rest : Quiet journal) :
    Quiet (event :: journal) := by
  intro id
  obtain ⟨referenced, live⟩ := first id
  obtain ⟨later, alive⟩ := rest id
  simp [referenced.symm, live.symm, later, alive]

private theorem quiet_append {first second : List Event} (left : Quiet first)
    (right : Quiet second) : Quiet (first ++ second) := by
  intro id
  obtain ⟨referenced, live⟩ := left id
  obtain ⟨later, alive⟩ := right id
  simp [referenced, live, later, alive]

private theorem quiet_skips (tasks : List Task) : Quiet (tasks.map .skip) := by
  intro id
  simp

private theorem commandJournal_quiet (machine : Machine) (policy : ReadPolicy)
    (command : Command) : Quiet (machine.journal policy command) := by
  intro id
  unfold Machine.journal
  split
  · split <;> simp
  · simp

private theorem advanceJournal_quiet
    (books : Accounts calls dropped engine.store engine.queue (some frame)) :
    Quiet (engine.advanceJournal frame) := by
  unfold advanceJournal
  cases engine.program.get? frame.label with
  | none => exact quiet_nil
  | some function =>
    dsimp only
    cases function.commands[frame.position.toNat]? with
    | none => exact fun id => retireJournal_quiet (accounts_end books) id
    | some command => exact quiet_cons (by simp) (commandJournal_quiet _ _ command)

private theorem invokeJournal_quiet {primitives : Primitives σ} {key : String}
    (inHand : Accounts calls (dropped ++ task.cells) engine.store engine.queue none) :
    Quiet (engine.invokeJournal primitives key task) := by
  unfold invokeJournal
  split
  · exact quiet_nil
  · split
    · exact quiet_nil
    · rename_i results host reply
      split
      · exact quiet_nil
      · refine quiet_cons (by simp) ?_
        obtain ⟨bound, done, settled⟩ := accounts_bindOutputs results inHand
        rw [done]
        exact fun id => retireJournal_quiet settled id

private theorem scheduleJournal_quiet {primitives : Primitives σ} (idle : engine.frame = none)
    (kept : engine.Kept calls dropped) : Quiet (engine.scheduleJournal primitives) := by
  unfold scheduleJournal
  refine quiet_append (quiet_skips _) ?_
  split
  · rename_i skipped task later chosen
    obtain ⟨inHand, -⟩ := take_ready idle kept chosen
    refine quiet_cons (by simp) ?_
    split
    · exact quiet_nil
    · exact invokeJournal_quiet inHand
    · exact advanceJournal_quiet (accounts_start inHand)
  · exact quiet_nil

private theorem stepJournal_quiet {primitives : Primitives σ} (kept : engine.Kept calls dropped) :
    Quiet (engine.stepJournal primitives) := by
  unfold stepJournal
  cases running : engine.frame with
  | some frame =>
    rw [Kept, running] at kept
    exact advanceJournal_quiet kept
  | none => exact scheduleJournal_quiet running kept

/-- The count of every live cell is the number of its roles: those in pending
tasks, those in the running frame, which are the cells of its task and of the
part of its call that is not enqueued, and those dropped so far. So the shared
counts of a call stay within its lists, no step meets a call that is not sound,
and no release finds a cell missing or without a reference. -/
theorem refs_count_roles (primitives : Primitives σ) (program : Program) (host : σ)
    (requests : List Request) (few : requests.count .step < UInt32.size) :
    let start := ofProgram program host
    let engine := start.after primitives requests
    (∀ id cell, engine.store.get? id = some cell →
      cell.refs.toNat = engine.queue.roles.count id + (rolesOf engine.frame).count id +
        (start.dropped primitives requests).count id) ∧
    (∀ frame, engine.frame = some frame →
      frame.call.sharedInputs.toNat ≤ frame.call.task.inputs.length ∧
        frame.call.sharedOutputs.toNat ≤ frame.call.task.outputs.length) ∧
    (engine.step primitives).1 ≠ .error .unsoundCall ∧
    ∀ id, .unreferenced id ∉ engine.stepJournal primitives ∧
      .missing id ∉ engine.stepJournal primitives := by
  intro start engine
  have kept := history_kept primitives program host requests (Nat.le_of_lt few)
  refine ⟨fun id cell held => ?_, fun frame running => ?_, fun failed => ?_,
    stepJournal_quiet kept⟩
  · have counted := kept.balanced.exact id cell held
    simpa only [List.count_append] using counted
  · exact Call.isSound_iff.mp (kept.held frame running).sound
  · exact (step_sound kept few).2 .unsoundCall failed

/-- The first function enqueues two calls on one cell and leaves a third role of
it in a call that it never enqueues; the second adds its own input to a call. -/
private def rolesDemo : Program :=
  .ofFunctions
    [⟨"f", [.create, .assign 7, .dupl, .input, .push "g", .pushFunc, .push "g", .pushFunc, .input]⟩,
    ⟨"g", [.pushParam 0, .input]⟩] (by decide)

/-- While the first call runs: a role in the queue, one in the running task, one
in its call, and one dropped. -/
theorem refs_count_roles_demo :
    let requests := .seed "f" :: List.replicate 12 Request.step
    let start := ofProgram rolesDemo ()
    let engine := start.after (.scripted []) requests
    requests.count .step < UInt32.size ∧ engine.store.get? 1 = some ⟨true, 7, 4⟩ ∧
      engine.queue.roles = [1] ∧ rolesOf engine.frame = [1, 1] ∧
      start.dropped (.scripted []) requests = [1] ∧
      (4 : UInt64).toNat = engine.queue.roles.count 1 + (rolesOf engine.frame).count 1 +
        (start.dropped (.scripted []) requests).count 1 := by
  refine ⟨by decide, by decide, by decide, by decide, by decide, ?_⟩
  exact (refs_count_roles (.scripted []) rolesDemo () (.seed "f" :: List.replicate 12 .step)
    (by decide)).1 1 ⟨true, 7, 4⟩ (by decide)

end Engine

end Dataflow
