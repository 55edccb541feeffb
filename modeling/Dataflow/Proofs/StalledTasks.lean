import Dataflow.Primitives.Scripted
import Dataflow.Proofs.IdleStore
import Dataflow.Proofs.StepEffects

/-! A stall is permanent. When an engine stalls, every live cell is listed by a pending
task or was dropped, so it stays live for good. Whatever is seeded later starts without
cells and gets hold of new ones only, under ids that are not live. So no later task can
name a cell that is live now, and the tasks that wait for one wait forever. -/
namespace Dataflow

/-- Whether cells are bound depends on nothing but these cells. -/
theorem Store.allBound_congr {store other : Store} {ids : List CellId}
    (same : ∀ id ∈ ids, store.get? id = other.get? id) :
    store.allBound ids = other.allBound ids := by
  induction ids with
  | nil => rfl
  | cons id rest ih =>
    have first : store.isBound id = other.isBound id := by
      simp only [isBound, fetch, same id List.mem_cons_self]
    have later := ih fun other member => same other (List.mem_cons_of_mem _ member)
    rw [allBound, allBound, first, later]

namespace Selection

variable {store : Store} {task : Task}

/-- The first task is taken if it is ready, and skipped if it is not. -/
theorem ready_cons_iff {first : Task} {rest skipped later : List Task} :
    ofTasks store (first :: rest) = .ready skipped task later ↔
      (first.isReady store = .ok true ∧ skipped = [] ∧ task = first ∧ later = rest) ∨
      first.isReady store = .ok false ∧
        ∃ passed, skipped = first :: passed ∧ ofTasks store rest = .ready passed task later := by
  rw [ofTasks]
  cases first.isReady store with
  | error fault => simp
  | ok answer =>
    cases answer with
    | true => simp [eq_comm]
    | false =>
      cases ofTasks store rest with
      | stalled passed => simp [skip]
      | undecided passed other fault => simp [skip]
      | ready passed other behind =>
        simp only [skip, ready.injEq, Except.ok.injEq, true_and, false_and, false_or,
          reduceCtorEq]
        constructor
        · rintro ⟨rfl, rfl, rfl⟩
          exact ⟨passed, rfl, rfl, rfl, rfl⟩
        · rintro ⟨between, rfl, rfl, rfl, rfl⟩
          exact ⟨rfl, rfl, rfl⟩

/-- A queue is stalled if none of its tasks is ready, and then all are skipped. -/
theorem stalled_iff {tasks skipped : List Task} :
    ofTasks store tasks = .stalled skipped ↔
      skipped = tasks ∧ ∀ task ∈ tasks, task.isReady store = .ok false := by
  induction tasks generalizing skipped with
  | nil => simp [ofTasks, eq_comm]
  | cons first rest ih =>
    rw [ofTasks]
    constructor
    · intro found
      split at found
      · cases found
      · rename_i blocked
        cases chosen : ofTasks store rest with
        | ready passed other later => simp [chosen, skip] at found
        | undecided passed other fault => simp [chosen, skip] at found
        | stalled passed =>
          obtain ⟨rfl, later⟩ := ih.mp chosen
          simp only [chosen, skip, stalled.injEq] at found
          exact ⟨found.symm, List.forall_mem_cons.mpr ⟨blocked, later⟩⟩
      · cases found
    · rintro ⟨rfl, blocked⟩
      obtain ⟨here, later⟩ := List.forall_mem_cons.mp blocked
      rw [here, ih.mpr ⟨rfl, later⟩]
      rfl

/-- The task found is ready and follows tasks that are not. -/
theorem ready_iff {tasks skipped later : List Task} :
    ofTasks store tasks = .ready skipped task later ↔
      tasks = skipped ++ task :: later ∧
        (∀ passed ∈ skipped, passed.isReady store = .ok false) ∧ task.isReady store = .ok true := by
  induction tasks generalizing skipped with
  | nil => simp [ofTasks]
  | cons first rest ih =>
    rw [ready_cons_iff]
    constructor
    · rintro (⟨ready, rfl, rfl, rfl⟩ | ⟨blocked, passed, rfl, chosen⟩)
      · exact ⟨rfl, List.forall_mem_nil _, ready⟩
      · obtain ⟨rfl, others, ready⟩ := ih.mp chosen
        exact ⟨rfl, List.forall_mem_cons.mpr ⟨blocked, others⟩, ready⟩
    · rintro ⟨shape, blocked, ready⟩
      cases skipped with
      | nil =>
        cases shape
        exact .inl ⟨ready, rfl, rfl, rfl⟩
      | cons passed others =>
        obtain ⟨rfl, rfl⟩ := List.cons.inj shape
        obtain ⟨here, after⟩ := List.forall_mem_cons.mp blocked
        exact .inr ⟨here, others, rfl, ih.mpr ⟨rfl, after, ready⟩⟩

/-- A ready task comes after tasks that are not ready. -/
theorem ready_after_blocked {waiting rest skipped later : List Task}
    (blocked : ∀ task ∈ waiting, task.isReady store = .ok false)
    (found : ofTasks store (waiting ++ rest) = .ready skipped task later) :
    ∃ between, skipped = waiting ++ between ∧ ofTasks store rest = .ready between task later := by
  induction waiting generalizing skipped with
  | nil => exact ⟨skipped, rfl, found⟩
  | cons first others ih =>
    obtain ⟨here, after⟩ := List.forall_mem_cons.mp blocked
    rcases ready_cons_iff.mp found with ⟨ready, -⟩ | ⟨-, passed, rfl, chosen⟩
    · cases here.symm.trans ready
    · obtain ⟨between, rfl, ready⟩ := ih after chosen
      exact ⟨between, rfl, ready⟩

end Selection

/-- The task is the first of the queue that is ready. The tasks in `skipped` come before it
and those in `later` after it. -/
structure Queue.FirstReady (queue : Queue) (store : Store) (skipped : List Task) (task : Task)
    (later : List Task) : Prop where
  queued : queue.tasks = skipped ++ task :: later
  waiting : ∀ passed ∈ skipped, passed.isReady store = .ok false
  ready : task.isReady store = .ok true

theorem Queue.select_ready_iff {queue : Queue} {store : Store} {task : Task}
    {skipped later : List Task} :
    queue.select store = .ready skipped task later ↔ queue.FirstReady store skipped task later := by
  rw [Queue.select, Selection.ready_iff]
  constructor
  · rintro ⟨queued, waiting, ready⟩
    exact ⟨queued, waiting, ready⟩
  · rintro ⟨queued, waiting, ready⟩
    exact ⟨queued, waiting, ready⟩

namespace Engine

variable {engine : Engine σ} {calls : Nat} {dropped lost : List CellId} {waiting : List Task}
  {held : Store}

/-- The tasks in `waiting` are the first in the queue, the cells of `held` are as they
were, and nothing else in the engine names one of them. -/
structure Frozen (waiting : List Task) (held : Store) (engine : Engine σ) : Prop where
  queue : ∃ newer, engine.queue.tasks = waiting ++ newer ∧
    ∀ task ∈ newer, ∀ id ∈ task.cells, held.contains id = false
  named : ∀ id ∈ mentionsOf engine.frame, held.contains id = false
  cells : ∀ id cell, held.get? id = some cell → engine.store.get? id = some cell

/-- What a stall leaves for good: tasks that wait for cells of a store, all of whose
cells are listed by these tasks or were lost before. -/
structure Stalled (waiting : List Task) (lost : List CellId) (held : Store) : Prop where
  live : ∀ task ∈ waiting, ∀ id ∈ task.inputs, held.contains id = true
  blocked : ∀ task ∈ waiting, task.isReady held = .ok false
  owned : ∀ id, held.contains id = true → id ∈ (⟨waiting⟩ : Queue).roles ++ lost

theorem frozen_blocked (stalled : Stalled waiting lost held) (frozen : Frozen waiting held engine) :
    ∀ task ∈ waiting, task.isReady engine.store = .ok false := by
  intro task member
  refine Eq.trans (Store.allBound_congr fun id input => ?_) (stalled.blocked task member)
  obtain ⟨cell, found⟩ := Store.contains_iff.mp (stalled.live task member id input)
  rw [found, frozen.cells id cell found]

/-- The task that a step takes is not one of those that wait, and the step reaches none
of the cells that they hold. -/
theorem frozen_out_of_reach (stalled : Stalled waiting lost held)
    (frozen : Frozen waiting held engine) :
    (∀ place, engine.taken? .step = some place → waiting.length ≤ place) ∧
    (∃ newer, engine.remaining .step = waiting ++ newer ∧
      ∀ task ∈ newer, ∀ id ∈ task.cells, held.contains id = false) ∧
    ∀ id ∈ engine.stepReach, held.contains id = false := by
  obtain ⟨newer, tasks, foreign⟩ := frozen.queue
  cases running : engine.frame with
  | some frame =>
    have named := frozen.named
    rw [running] at named
    refine ⟨by simp [taken?, running], ⟨newer, ?_, foreign⟩, ?_⟩
    · simp [remaining, taken?, running, tasks]
    · simpa [stepReach, running, mentionsOf] using named
  | none =>
    cases chosen : engine.queue.select engine.store with
    | stalled skipped =>
      refine ⟨by simp [taken?, running, chosen], ⟨newer, ?_, foreign⟩, ?_⟩
      · simp [remaining, taken?, running, chosen, tasks]
      · simp [stepReach, running, chosen]
    | undecided skipped task fault =>
      refine ⟨by simp [taken?, running, chosen], ⟨newer, ?_, foreign⟩, ?_⟩
      · simp [remaining, taken?, running, chosen, tasks]
      · simp [stepReach, running, chosen]
    | ready skipped task later =>
      have found := chosen
      rw [Queue.select, tasks] at found
      obtain ⟨between, rfl, ready⟩ :=
        Selection.ready_after_blocked (frozen_blocked stalled frozen) found
      obtain ⟨shape, -⟩ := Selection.ready_eq ready
      obtain ⟨place, left⟩ := remaining_ready running chosen
      refine ⟨?_, ⟨between ++ later, by rw [left, List.append_assoc], ?_⟩, ?_⟩
      · rintro other taken
        rw [place] at taken
        cases taken
        simp
      · intro other member id listed
        refine foreign other ?_ id listed
        rw [shape]
        simp only [List.mem_append, List.mem_cons] at member ⊢
        grind
      · intro id listed
        have own : engine.stepReach = task.cells := by simp [stepReach, running, chosen]
        exact foreign task (by simp [shape]) id (own ▸ listed)

theorem seed_frozen (name : String) (frozen : Frozen waiting held engine) :
    Frozen waiting held (engine.seed name) := by
  obtain ⟨newer, tasks, foreign⟩ := frozen.queue
  refine ⟨⟨newer ++ [.named name], ?_, ?_⟩, frozen.named, frozen.cells⟩
  · simp [seed, Queue.push, tasks]
  · intro task member id listed
    rcases List.mem_append.mp member with old | new
    · exact foreign task old id listed
    · cases List.mem_singleton.mp new
      cases listed

/-- A step leaves a frozen engine frozen. -/
theorem step_frozen (primitives : Primitives σ) (stalled : Stalled waiting lost held)
    (kept : engine.Kept calls dropped) (few : calls < UInt32.size)
    (still : ∀ id ∈ lost, id ∈ dropped) (frozen : Frozen waiting held engine) :
    Frozen waiting held (engine.step primitives).2 := by
  obtain ⟨-, ⟨newer, left, foreign⟩, apart⟩ := frozen_out_of_reach stalled frozen
  have moves := step_moves primitives kept few
  have later : (engine.step primitives).2.Kept (calls + 1)
      (dropped ++ engine.stepDrops primitives) :=
    (step_sound kept few).1
  obtain ⟨pushed, tasks, within⟩ := moves.queue
  have queue : (engine.step primitives).2.queue.tasks = waiting ++ (newer ++ pushed) := by
    rw [tasks, left, List.append_assoc]
  refine ⟨⟨newer ++ pushed, queue, ?_⟩, ?_, ?_⟩
  · intro task member id listed
    rcases List.mem_append.mp member with old | new
    · exact foreign task old id listed
    · exact apart id (within task new id listed)
  · intro id member
    rcases moves.named id member with reached | rfl
    · exact apart id reached
    · -- A fresh id is not live, and the cells of `held` are.
      refine Bool.eq_false_iff.mpr fun old => ?_
      obtain ⟨cell, found⟩ := Store.contains_iff.mp old
      have live := Store.contains_of_get? (frozen.cells _ cell found)
      simp [Store.freshId_not_live (id_room kept few)] at live
  · intro id cell found
    have old : held.contains id = true := Store.contains_of_get? found
    -- The waiting tasks and the lost roles keep the cell live over the step.
    have owed : id ∈ (engine.step primitives).2.queue.roles ++
        rolesOf (engine.step primitives).2.frame ++
        (dropped ++ engine.stepDrops primitives) := by
      have listed := stalled.owned id old
      simp only [Queue.roles, queue, List.flatMap_append, List.mem_append] at listed ⊢
      grind
    obtain ⟨cell', now⟩ := Store.contains_iff.mp (later.balanced.live id owed)
    have outside : id ∉ engine.stepReach := fun reached => by
      simp [apart id reached] at old
    rw [now, (moves.cells id cell cell' (frozen.cells id cell found) now).2 outside]

private theorem frozen_at_stall (kept : engine.Kept calls dropped) (tidy : engine.Tidy)
    (idle : engine.frame = none) {skipped : List Task}
    (nothing : engine.queue.select engine.store = .stalled skipped) :
    Stalled engine.queue.tasks dropped engine.store ∧
      Frozen engine.queue.tasks engine.store engine := by
  refine ⟨⟨?_, (Selection.stalled_iff.mp nothing).2, ?_⟩,
    ⟨⟨[], by simp, ?_⟩, ?_, fun _ _ found => found⟩⟩
  · intro task member id input
    exact queued_live kept member (List.mem_append.mpr (.inl input))
  · intro id live
    exact (idle_live_iff kept tidy idle id).mp live
  · exact fun task member => by cases member
  · simp [idle, mentionsOf]

/-- A stall is permanent. The step that finds it changes nothing, and after any further
requests the tasks that were pending are the first in the queue, in order; none of them
is ready, none is at the place that a step takes, and no step reports that it runs. -/
theorem stall_is_permanent (primitives : Primitives σ) (program : Program) (host : σ)
    (requests later : List Request)
    (few : requests.count .step + later.count .step < UInt32.size) (pending : Nat) :
    let engine := (ofProgram program host).after primitives requests
    let final := engine.after primitives later
    (engine.step primitives).1 = .ok (.stalled pending) →
    (engine.step primitives).2 = engine ∧
    engine.queue.size = pending ∧ final.queue.tasks.take pending = engine.queue.tasks ∧
    (∀ task ∈ engine.queue.tasks, task.isReady final.store = .ok false) ∧
    (∀ place, final.taken? .step = some place → pending ≤ place) ∧
    ∀ task ∈ engine.queue.tasks, .running task ∉ final.stepJournal primitives := by
  intro engine final answer
  have kept := history_kept primitives program host requests (by omega)
  have tidy := history_tidy primitives program host requests (by omega)
  obtain ⟨idle, ⟨skipped, nothing⟩, step, unchanged⟩ := halted_step answer rfl
  have size : engine.queue.size = pending := by
    split at step
    · cases step
    · cases step
      rfl
  obtain ⟨stalled, frozen⟩ := frozen_at_stall kept tidy idle nothing
  -- Every further request keeps the books, the lost roles and the frozen part.
  obtain ⟨-, -, frozen⟩ := holds_after primitives UInt32.size
    (fun calls past now => now.Kept calls past ∧
      (∀ id ∈ (ofProgram program host).dropped primitives requests, id ∈ past) ∧
      Frozen engine.queue.tasks engine.store now)
    (fun name holds => ⟨seed_kept name holds.1, holds.2.1, seed_frozen name holds.2.2⟩)
    (fun policy holds => ⟨holds.1, holds.2.1, ⟨holds.2.2.queue, holds.2.2.named, holds.2.2.cells⟩⟩)
    (fun within holds => ⟨(step_sound holds.1 within).1,
      fun id member => List.mem_append.mpr (.inl (holds.2.1 id member)),
      step_frozen primitives stalled holds.1 within holds.2.1 holds.2.2⟩)
    ⟨kept, fun id member => member, frozen⟩ later (by omega)
  have blocked := frozen_blocked stalled frozen
  obtain ⟨beyond, -, -⟩ := frozen_out_of_reach stalled frozen
  obtain ⟨newer, tasks, -⟩ := frozen.queue
  have first : final.queue.tasks.take pending = engine.queue.tasks := by
    rw [tasks, ← size]
    exact List.take_left
  refine ⟨unchanged, size, first, blocked, fun place taken => size ▸ beyond place taken, ?_⟩
  intro task member running
  obtain ⟨place, taken, queued⟩ := running_iff_taken.mp running
  cases (blocked task member).symm.trans (taken_ready taken queued)

/-- The first function leaves a task that waits for a cell which nobody binds. The
second makes a cell of its own, binds it and hands it on. -/
private def stallDemo : Program :=
  .ofFunctions [⟨"f", [.create, .input, .push "g", .pushFunc]⟩, ⟨"g", []⟩,
    ⟨"h", [.create, .assign 7, .input, .push "g", .pushFunc]⟩] (by decide)

/-- A later entry point gets a cell of its own and its call of the same function runs,
while the first one still waits. -/
theorem stall_is_permanent_reseeded :
    let requests := .seed "f" :: List.replicate 5 Request.step
    let later := .seed "h" :: List.replicate 6 Request.step
    let engine := (ofProgram stallDemo ()).after (.scripted []) requests
    let final := engine.after (.scripted []) later
    let task : Task := ⟨some "g", [1], []⟩
    requests.count .step + later.count .step < UInt32.size ∧
      (engine.step (.scripted [])).1 = .ok (.stalled 1) ∧ engine.queue.tasks = [task] ∧
      final.queue.tasks = [task, ⟨some "g", [2], []⟩] ∧ final.taken? .step = some 1 ∧
      .running task ∉ final.stepJournal (.scripted []) := by
  refine ⟨by decide, rfl, rfl, rfl, rfl, ?_⟩
  exact (stall_is_permanent (.scripted []) stallDemo () (.seed "f" :: List.replicate 5 .step)
    (.seed "h" :: List.replicate 6 .step) (by decide) 1 rfl).2.2.2.2.2 ⟨some "g", [1], []⟩
    (List.mem_singleton.mpr rfl)

end Engine

end Dataflow
