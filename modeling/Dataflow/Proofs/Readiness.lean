import Dataflow.Primitives.Scripted
import Dataflow.Proofs.StepEffects

/-! A task that is ready stays ready until it is dispatched. A pending task owns a
reference to each of its inputs, so no sweep removes them and no id of theirs is
given out again; and nothing that a step does to a live cell takes its value away. -/
namespace Dataflow.Engine

variable {engine : Engine σ} {calls : Nat} {dropped : List CellId}

/-- The queue after a request is what the request left there and what it added. -/
theorem remaining_first (primitives : Primitives σ) (kept : engine.Kept calls dropped)
    (few : calls < UInt32.size) (request : Request) :
    engine.remaining request <+: (engine.serve primitives request).2.queue.tasks := by
  cases request with
  | seed name => exact List.prefix_append _ _
  | setPolicy policy => exact List.prefix_rfl
  | step =>
    obtain ⟨pushed, tasks, -⟩ := (step_moves primitives kept few).queue
    exact ⟨pushed, tasks.symm⟩

/-- A bound cell that a pending task lists is live and bound after every request
that leaves the task in the queue. -/
theorem listed_stays_bound (primitives : Primitives σ) (kept : engine.Kept calls dropped)
    (few : calls < UInt32.size) (request : Request) {task : Task} {id : CellId} {cell : Cell}
    (pending : task ∈ engine.remaining request) (listed : id ∈ task.cells)
    (held : engine.store.get? id = some cell) (bound : cell.bound = true) :
    ∃ cell', (engine.serve primitives request).2.store.get? id = some cell' ∧
      cell'.bound = true := by
  have queued := (remaining_first primitives kept few request).subset pending
  cases request with
  | seed name => exact ⟨cell, held, bound⟩
  | setPolicy policy => exact ⟨cell, held, bound⟩
  | step =>
    have live := queued_live (step_sound kept few).1 queued listed
    obtain ⟨cell', now⟩ := Store.contains_iff.mp live
    exact ⟨cell', now, ((step_moves primitives kept few).cells id cell cell' held now).1 bound⟩

/-- A task stays in the queue unless its place is the one that the request takes. -/
theorem mem_remaining {request : Request} {place : Nat} {task : Task}
    (queued : engine.queue.get? place = some task) (stays : engine.taken? request ≠ some place) :
    task ∈ engine.remaining request := by
  unfold remaining
  cases taken : engine.taken? request with
  | none => exact List.mem_of_getElem? queued
  | some other =>
    refine List.mem_eraseIdx_iff_getElem?.mpr ⟨place, ?_, queued⟩
    rintro rfl
    exact stays taken

/-- Readiness is monotone over every history. Whatever the next request is, a pending
task that is ready is the one the request takes, or is in the queue afterwards and
ready. More exactly, the request takes at most one task and leaves the others in the
queue, unchanged and in order; a bound input of any of them stays live and bound. The
task that a step takes is the one that it reports to run. -/
theorem ready_tasks_stay_ready (primitives : Primitives σ) (program : Program) (host : σ)
    (requests : List Request) (few : requests.count .step < UInt32.size) (request : Request) :
    let engine := (ofProgram program host).after primitives requests
    let next := (engine.serve primitives request).2
    (∀ place task, engine.queue.get? place = some task → task.isReady engine.store = .ok true →
      engine.taken? request = some place ∨
        task ∈ next.queue.tasks ∧ task.isReady next.store = .ok true) ∧
    engine.remaining request <+: next.queue.tasks ∧
    (∀ task ∈ engine.remaining request, ∀ id ∈ task.inputs, ∀ cell,
      engine.store.get? id = some cell → cell.bound = true →
        ∃ cell', next.store.get? id = some cell' ∧ cell'.bound = true) ∧
    ∀ task, .running task ∈ engine.stepJournal primitives ↔
      ∃ place, engine.taken? .step = some place ∧ engine.queue.get? place = some task := by
  intro engine next
  have kept := history_kept primitives program host requests (Nat.le_of_lt few)
  have stays : ∀ task ∈ engine.remaining request, ∀ id ∈ task.inputs, ∀ cell,
      engine.store.get? id = some cell → cell.bound = true →
        ∃ cell', next.store.get? id = some cell' ∧ cell'.bound = true := by
    intro task pending id input cell held bound
    exact listed_stays_bound primitives kept few request pending (List.mem_append.mpr (.inl input))
      held bound
  have first := remaining_first primitives kept few request
  refine ⟨fun place task queued ready => ?_, first, stays, fun task => running_iff_taken⟩
  by_cases taken : engine.taken? request = some place
  · exact .inl taken
  · have pending := mem_remaining queued taken
    refine .inr ⟨first.subset pending, Store.allBound_iff.mpr fun id input => ?_⟩
    obtain ⟨cell, held, bound⟩ := Store.allBound_iff.mp ready id input
    exact stays task pending id input cell held bound

/-- The function enqueues two calls of another one on a single cell. -/
private def twiceDemo : Program :=
  .ofFunctions [⟨"f", [.create, .assign 7, .input, .push "g", .pushFunc, .push "g", .pushFunc]⟩,
    ⟨"g", []⟩] (by decide)

/-- Two equal tasks are ready. The step that runs one to its end, with a sweep, leaves
the other, which is still ready. -/
theorem ready_tasks_stay_ready_twice :
    let requests := .seed "f" :: List.replicate 8 Request.step
    let engine := (ofProgram twiceDemo ()).after (.scripted []) requests
    let next := (engine.serve (.scripted []) .step).2
    let task : Task := ⟨some "g", [1], []⟩
    requests.count .step < UInt32.size ∧ engine.taken? .step = some 0 ∧
      engine.queue.get? 1 = some task ∧ task.isReady engine.store = .ok true ∧
      task ∈ next.queue.tasks ∧ task.isReady next.store = .ok true := by
  refine ⟨by decide, rfl, rfl, rfl, ?_⟩
  have stays := (ready_tasks_stay_ready (.scripted []) twiceDemo ()
    (.seed "f" :: List.replicate 8 .step) (by decide) .step).1 1 ⟨some "g", [1], []⟩ rfl rfl
  exact stays.resolve_left (by decide)

end Dataflow.Engine
