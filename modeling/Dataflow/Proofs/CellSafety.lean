import Dataflow.Primitives.Scripted
import Dataflow.Proofs.EngineAccounts

/-! Every id that occurs anywhere in an engine belongs to a live cell, after
every history. Ids come back once their cells are swept, so this is what keeps
two cells apart: a new cell gets an id that occurs nowhere else. -/
namespace Dataflow

/-- Every occurrence of an id in the frame that is running, if there is one. -/
def mentionsOf : Option Frame → List CellId
  | some frame => frame.mentions
  | none => []

namespace Engine

/-- Every occurrence of an id in the pending tasks, the running task, the operand
stack and the call under construction. -/
def mentions (engine : Engine σ) : List CellId :=
  engine.queue.roles ++ mentionsOf engine.frame

variable {engine : Engine σ} {calls : Nat} {dropped : List CellId} {frame : Frame}
  {label : String} {position : UInt64}

theorem mentions_live (kept : engine.Kept calls dropped) :
    ∀ id ∈ engine.mentions, engine.store.contains id = true := by
  intro id member
  rcases List.mem_append.mp member with queued | running
  · exact queue_live kept queued
  · cases present : engine.frame with
    | none => simp [present, mentionsOf] at running
    | some frame =>
      rw [present] at running
      exact (kept.held frame present).live id running

/-! ### The step of a command -/

theorem advance_command (ran : (engine.advance frame).1 = .ok (.command label position)) :
    frame.label = label ∧ frame.position = position := by
  unfold advance at ran
  split at ran
  · cases ran
  · split at ran
    · cases ran
    · split at ran <;> cases ran
      exact ⟨rfl, rfl⟩

private theorem invoke_no_command {primitives : Primitives σ} {key : String} {task : Task} :
    (engine.invoke primitives key task).1 ≠ .ok (.command label position) := by
  intro ran
  unfold invoke at ran
  split at ran
  · cases ran
  · split at ran
    · cases ran
    · unfold settle at ran
      split at ran
      · cases ran
      · split at ran <;> cases ran

/-- A step that executes a command advances a running frame, which the step may
have started itself. -/
theorem command_step {primitives : Primitives σ} (kept : engine.Kept calls dropped)
    (ran : (engine.step primitives).1 = .ok (.command label position)) :
    ∃ (before : Engine σ) (frame : Frame), before.Kept calls dropped ∧ before.frame = some frame ∧
      before.store = engine.store ∧ before.program = engine.program ∧
      frame.label = label ∧ frame.position = position ∧
      engine.step primitives = before.advance frame := by
  unfold step at ran ⊢
  cases running : engine.frame with
  | some frame =>
    simp only [running] at ran
    obtain ⟨named, placed⟩ := advance_command ran
    exact ⟨engine, frame, kept, running, rfl, rfl, named, placed, rfl⟩
  | none =>
    simp only [running] at ran
    unfold schedule at ran ⊢
    by_cases empty : engine.queue.isEmpty = true
    · simp [empty] at ran
    · simp only [empty] at ran ⊢
      cases chosen : engine.queue.select engine.store with
      | stalled skipped => simp [chosen] at ran
      | undecided skipped task fault => simp [chosen, fail] at ran
      | ready skipped task later =>
        obtain ⟨inHand, -⟩ := take_ready running kept chosen
        simp only [chosen] at ran ⊢
        unfold dispatch at ran ⊢
        cases resolved : Target.resolve (primitives.provides engine.host) engine.program
            task.label with
        | none => simp [resolved, fail] at ran
        | some target =>
          simp only [resolved] at ran ⊢
          cases target with
          | primitive key => exact absurd ran invoke_no_command
          | function =>
            obtain ⟨named, placed⟩ := advance_command ran
            exact ⟨{ engine with queue := ⟨skipped ++ later⟩, frame := some (.start task) },
              .start task, accounts_start inHand, rfl, rfl, rfl, named, placed, rfl⟩

/-- A cell that is created while the books are kept gets an id that occurs
nowhere else. -/
theorem create_fresh (kept : engine.Kept calls dropped) (few : calls < UInt32.size)
    (running : engine.frame = some frame) {function : Function}
    (found : engine.program.get? frame.label = some function)
    (here : function.commands[frame.position.toNat]? = some .create) :
    let fresh := engine.store.freshId
    let next := (engine.advance frame).2
    engine.store.contains fresh = false ∧
      (∃ frame rest, next.frame = some frame ∧ frame.stack = .cell fresh :: rest) ∧
      next.mentions.count fresh = 1 := by
  intro fresh next
  have new : engine.store.contains fresh = false := Store.freshId_not_live (id_room kept few)
  have absent : fresh ∉ engine.mentions := by
    intro member
    have live := mentions_live kept fresh member
    simp [new] at live
  have created : next = ({ engine with
      store := engine.store.allocate
      steps := engine.steps + 1
      frame := some { frame.push (.cell fresh) with position := frame.position + 1 } } :
        Engine σ) := by
    simp only [next, advance, found, here]
    rfl
  refine ⟨new, ⟨_, frame.stack, by rw [created], rfl⟩, ?_⟩
  have unnamed := List.count_eq_zero.mpr absent
  rw [created]
  simp only [mentions, running, mentionsOf, Frame.mentions, Frame.push, List.filterMap_cons,
    Operand.cell?, List.count_append, List.count_cons_self] at unnamed ⊢
  omega

/-- No id dangles and none is shared by accident. Every id that occurs in an
engine is live. A step fails neither for a dangling reference nor in a dispatch,
whatever the read policy. And the cell that a `create` command makes has an id
that was not live and that occurs, after the command, on top of the stack only. -/
theorem cells_never_dangle (primitives : Primitives σ) (program : Program) (host : σ)
    (requests : List Request) (few : requests.count .step < UInt32.size) :
    let engine := (ofProgram program host).after primitives requests
    let answer := (engine.step primitives).1
    let next := (engine.step primitives).2
    let fresh := engine.store.freshId
    (∀ id ∈ engine.mentions, engine.store.contains id = true) ∧
    (∀ error, answer = .error (.error error) →
      (∀ task fault, error ≠ .dispatch task fault) ∧
        ∀ id, error.fault? ≠ some (.danglingReference id)) ∧
    (∀ label position function, answer = .ok (.command label position) →
      program.get? label = some function →
      function.commands[position.toNat]? = some .create →
      engine.store.contains fresh = false ∧
        (∃ frame rest, next.frame = some frame ∧ frame.stack = .cell fresh :: rest) ∧
        next.mentions.count fresh = 1) := by
  intro engine answer next fresh
  have kept := history_kept primitives program host requests (Nat.le_of_lt few)
  refine ⟨mentions_live kept, fun error failed => (step_sound kept few).2 _ failed, ?_⟩
  intro label position function ran found here
  obtain ⟨before, frame, books, running, store, unchanged, named, placed, advanced⟩ :=
    command_step kept ran
  have same : before.program = program :=
    unchanged.trans (after_program primitives (ofProgram program host) requests)
  have result := create_fresh books few running (by rw [same, named]; exact found)
    (by rw [placed]; exact here)
  rw [store, ← advanced] at result
  exact result

/-- The first function hands a cell to the second and ends, so the cell dies
with the second and its id comes back. -/
private def reuseDemo : Program :=
  .ofFunctions [⟨"f", [.create, .assign 7, .input, .push "g", .pushFunc]⟩, ⟨"g", []⟩,
    ⟨"h", [.push "x", .create]⟩] (by decide)

/-- The id of a swept cell is given out again, and it is nowhere else. -/
theorem cells_never_dangle_reuse :
    let requests := [.seed "f"] ++ List.replicate 7 .step ++ [.seed "h", Request.step]
    let engine := (ofProgram reuseDemo ()).after (.scripted []) requests
    let next := (engine.step (.scripted [])).2
    requests.count .step < UInt32.size ∧ engine.store.allocations = 1 ∧ engine.store.freshId = 1 ∧
      (engine.step (.scripted [])).1 = .ok (.command "h" 1) ∧ next.mentions.count 1 = 1 := by
  refine ⟨by decide, by decide, by decide, rfl, ?_⟩
  exact ((cells_never_dangle (.scripted []) reuseDemo ()
    ([.seed "f"] ++ List.replicate 7 .step ++ [.seed "h", .step]) (by decide)).2.2 "h" 1
    ⟨"h", [.push "x", .create]⟩ rfl (by decide) (by decide)).2.2

end Engine

end Dataflow
