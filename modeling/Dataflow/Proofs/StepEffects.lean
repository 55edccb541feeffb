import Dataflow.Proofs.CellSafety
import Dataflow.Proofs.StepRules

/-! What a step can reach. A step works on the cells that the running frame, or
the task it takes from the queue, can name. It changes no other cell that stays
live, it unbinds none, and the tasks it enqueues list only cells within its reach.
The queue keeps its order: one task may leave it, and new ones come at the end. -/
namespace Dataflow

/-! ### Stores -/

namespace Store

variable {store middle after : Store} {reach : List CellId}

/-- Of the cells that are live in both stores, none lost its value, and only
those within reach changed at all. -/
def Follows (reach : List CellId) (store after : Store) : Prop :=
  ∀ id cell cell', store.get? id = some cell → after.get? id = some cell' →
    (cell.bound = true → cell'.bound = true) ∧ (id ∉ reach → cell' = cell)

theorem follows_refl (reach : List CellId) (store : Store) : store.Follows reach store := by
  intro id cell cell' before now
  cases before.symm.trans now
  exact ⟨fun bound => bound, fun _ => rfl⟩

theorem follows_trans (first : store.Follows reach middle) (same : store.SameIds middle)
    (second : middle.Follows reach after) : store.Follows reach after := by
  intro id cell cell' before now
  obtain ⟨between, held⟩ := contains_iff.mp ((same id).trans (contains_of_get? before))
  obtain ⟨bound, kept⟩ := first id cell between before held
  obtain ⟨bound', kept'⟩ := second id between cell' held now
  exact ⟨fun given => bound' (bound given), fun outside => (kept' outside).trans (kept outside)⟩

theorem follows_of_map {change : CellId → Cell → Cell}
    (mapped : ∀ id, after.get? id = (store.get? id).map (change id))
    (bound : ∀ id cell, cell.bound = true → (change id cell).bound = true)
    (kept : ∀ id cell, id ∉ reach → change id cell = cell) : store.Follows reach after := by
  intro id cell cell' before now
  have changed : cell' = change id cell := by
    rw [mapped id, before] at now
    exact (Option.some.inj now).symm
  subst changed
  exact ⟨bound id cell, kept id cell⟩

theorem follows_update {id : CellId} {change : Cell → Cell} (within : id ∈ reach)
    (updated : store.update id change = .ok after)
    (bound : ∀ cell : Cell, cell.bound = true → (change cell).bound = true) :
    store.Follows reach after := by
  obtain ⟨-, mapped⟩ := update_ok updated
  refine follows_of_map mapped (fun other cell given => ?_) (fun other cell outside => ?_)
  · split
    · exact bound cell given
    · exact given
  · have different : other ≠ id := fun same => outside (same ▸ within)
    simp [different]

theorem follows_bind {id : CellId} {value : Value} (within : id ∈ reach)
    (bound : store.bind id value = .ok after) : store.Follows reach after :=
  follows_update within bound fun _ _ => rfl

theorem follows_incref {id : CellId} (within : id ∈ reach) (raised : store.incref id = .ok after) :
    store.Follows reach after :=
  follows_update within raised fun _ bound => bound

theorem follows_allocate (new : store.contains store.freshId = false) :
    store.Follows reach store.allocate := by
  intro id cell cell' before now
  have different : id ≠ store.freshId := by
    rintro rfl
    simp [contains_of_get? before] at new
  rw [get?_allocate, if_neg different] at now
  exact follows_refl reach store id cell cell' before now

theorem follows_increfAll {ids : List CellId} (live : ∀ id ∈ ids, store.contains id = true)
    (within : ∀ id ∈ ids, id ∈ reach) (raised : store.increfAll ids = .ok after) :
    store.Follows reach after := by
  obtain ⟨expected, done, mapped⟩ := increfAll_live ids live
  cases done.symm.trans raised
  refine follows_of_map mapped (fun id cell given => given) (fun id cell outside => ?_)
  have unlisted : ids.count id = 0 :=
    List.count_eq_zero.mpr fun member => outside (within id member)
  simp [unlisted]

theorem rebound_follows (bindings : List (CellId × Value)) (id : CellId) (cell : Cell) :
    (cell.bound = true → (rebound bindings id cell).bound = true) ∧
      (id ∉ bindings.map (·.1) → rebound bindings id cell = cell) := by
  induction bindings generalizing cell with
  | nil => exact ⟨fun bound => bound, fun _ => rfl⟩
  | cons binding rest ih =>
    rw [rebound, List.foldl_cons, ← rebound]
    by_cases same : id = binding.1
    · rw [if_pos same]
      exact ⟨fun _ => (ih _).1 rfl, fun outside => absurd (by simp [same]) outside⟩
    · rw [if_neg same]
      refine ⟨(ih cell).1, fun outside => (ih cell).2 fun member => outside ?_⟩
      exact List.mem_cons_of_mem _ member

/-- The end of a task touches the cells that the task lists. -/
theorem follows_retire (ids : List CellId) : store.Follows ids (store.release ids).collect := by
  intro id cell cell' before now
  rw [get?_collect, Option.filter_eq_some_iff, get?_release, before] at now
  cases now.1
  refine ⟨fun bound => bound, fun outside => ?_⟩
  have unlisted : ids.count id = 0 := List.count_eq_zero.mpr outside
  simp [unlisted]

end Store

/-! ### Commands -/

namespace Machine

variable {machine after left : Machine} {policy : ReadPolicy} {command : Command} {calls : Nat}
  {dropped : List CellId}

/-- What the frame can name bounds what a command does. -/
structure Reaches (machine after : Machine) : Prop where
  queue : ∃ pushed, after.queue.tasks = machine.queue.tasks ++ pushed ∧
    ∀ task ∈ pushed, ∀ id ∈ task.cells, id ∈ machine.frame.mentions
  named : ∀ id ∈ after.frame.mentions, id ∈ machine.frame.mentions ∨ id = machine.store.freshId
  cells : machine.store.Follows machine.frame.mentions after.store

private theorem reaches_of_named (queue : after.queue = machine.queue)
    (named : ∀ id ∈ after.frame.mentions, id ∈ machine.frame.mentions)
    (cells : machine.store.Follows machine.frame.mentions after.store) : machine.Reaches after where
  queue := ⟨[], by rw [queue, List.append_nil], fun task member => by cases member⟩
  named id member := .inl (named id member)
  cells := cells

private theorem named_withStack (stack : List Operand)
    (known : ∀ id, .cell id ∈ stack → id ∈ machine.frame.mentions) :
    ∀ id ∈ (machine.withStack stack).frame.mentions, id ∈ machine.frame.mentions := by
  intro id member
  rcases List.mem_append.mp member with listed | onStack
  · exact List.mem_append.mpr (.inl listed)
  · obtain ⟨operand, inside, shown⟩ := List.mem_filterMap.mp onStack
    cases operand with
    | literal word => cases shown
    | cell other =>
      cases shown
      exact known id inside

private theorem named_push {operand : Operand}
    (known : ∀ id, operand = .cell id → id ∈ machine.frame.mentions) :
    ∀ id ∈ (machine.push operand).frame.mentions, id ∈ machine.frame.mentions := by
  refine named_withStack (operand :: machine.frame.stack) fun id member => ?_
  rcases List.mem_cons.mp member with top | below
  · exact known id top.symm
  · exact Frame.stack_mentioned below

private theorem named_below {top : Operand} {rest : List Operand}
    (stack : machine.frame.stack = top :: rest) :
    ∀ id ∈ (machine.withStack rest).frame.mentions, id ∈ machine.frame.mentions :=
  named_withStack rest fun _ member =>
    Frame.stack_mentioned (by rw [stack]; exact List.mem_cons_of_mem _ member)

private theorem named_withCall {call : Call}
    (known : ∀ id ∈ call.task.cells, id ∈ machine.frame.mentions) :
    ∀ id ∈ (machine.withCall call).frame.mentions, id ∈ machine.frame.mentions := by
  intro id member
  rcases List.mem_append.mp member with listed | onStack
  · rcases List.mem_append.mp listed with own | called
    · exact List.mem_append.mpr (.inl (List.mem_append.mpr (.inl own)))
    · exact known id called
  · exact List.mem_append.mpr (.inr onStack)

private theorem top_named {id : CellId} {rest : List Operand}
    (stack : machine.frame.stack = .cell id :: rest) : id ∈ machine.frame.mentions :=
  Frame.stack_mentioned (by rw [stack]; exact List.mem_cons_self)

private theorem called_named {id : CellId} (listed : id ∈ machine.frame.call.task.cells) :
    id ∈ machine.frame.mentions :=
  List.mem_append.mpr (.inl (List.mem_append.mpr (.inr listed)))

private theorem reaches_join {id : CellId} {rest : List Operand} {store : Store} {call : Call}
    (stack : machine.frame.stack = .cell id :: rest) (raised : machine.store.incref id = .ok store)
    (listed : ∀ other ∈ call.task.cells, other = id ∨ other ∈ machine.frame.call.task.cells) :
    machine.Reaches (((machine.withStack rest).withStore store).withCall call) := by
  refine reaches_of_named rfl ?_ (Store.follows_incref (top_named stack) raised)
  intro other member
  rcases List.mem_append.mp member with inTasks | onStack
  · rcases List.mem_append.mp inTasks with own | called
    · exact List.mem_append.mpr (.inl (List.mem_append.mpr (.inl own)))
    · rcases listed other called with rfl | before
      · exact top_named stack
      · exact called_named before
  · exact named_below stack other (List.mem_append.mpr (.inr onStack))

/-- A command that completes stays within the reach of its frame. -/
theorem executes_reaches (kept : machine.Kept calls dropped) (few : calls < UInt32.size)
    (rule : Executes policy machine command after) : machine.Reaches after := by
  have same := Store.follows_refl machine.frame.mentions machine.store
  cases rule with
  | dupl stack =>
    refine reaches_of_named rfl (named_push fun id top => ?_) same
    exact top_named (top ▸ stack)
  | descCall => exact reaches_of_named rfl (named_withCall fun id member => by cases member) same
  | create =>
    have new := Store.freshId_not_live (id_room kept few)
    refine ⟨⟨[], by simp [push, withStore], fun task member => by cases member⟩, ?_,
      Store.follows_allocate new⟩
    intro id member
    simp only [push, Frame.push, Frame.mentions, withStore, List.filterMap_cons, Operand.cell?,
      List.mem_append, List.mem_cons] at member ⊢
    grind
  | assign stack bound =>
    exact reaches_of_named rfl (fun id member => member)
      (Store.follows_bind (top_named stack) bound)
  | assignTop stack read bound =>
    refine reaches_of_named rfl (named_below stack) (Store.follows_bind ?_ bound)
    exact Frame.stack_mentioned (by rw [stack]; simp)
  | output stack raised =>
    refine reaches_join stack raised fun other member => ?_
    simp only [Call.addOutput, Task.cells, List.mem_append, List.mem_singleton] at member ⊢
    grind
  | input stack raised =>
    refine reaches_join stack raised fun other member => ?_
    simp only [Call.addInput, Task.cells, List.mem_append, List.mem_singleton] at member ⊢
    grind
  | push word => exact reaches_of_named rfl (named_push fun id top => by cases top) same
  | pushFunc stack sound raised =>
    refine ⟨⟨[_], rfl, fun task member id listed => ?_⟩, fun id member => .inl ?_, ?_⟩
    · cases List.mem_singleton.mp member
      exact called_named listed
    · exact named_below stack id member
    · refine Store.follows_increfAll (shared_live kept) (fun id shared => called_named ?_) raised
      exact machine.frame.call.cells_perm.mem_iff.mpr (List.mem_append.mpr (.inl shared))
  | pushParam found =>
    refine reaches_of_named rfl (named_push fun id top => ?_) same
    cases top
    exact Frame.cellAt_mentioned (fun _ input => List.mem_append.mpr (.inl input)) found
  | pushReturn found =>
    refine reaches_of_named rfl (named_push fun id top => ?_) same
    cases top
    exact Frame.cellAt_mentioned (fun _ output => List.mem_append.mpr (.inr output)) found

theorem spares_reaches (spares : machine.Spares left) : machine.Reaches left := by
  have same := Store.follows_refl machine.frame.mentions machine.store
  rcases spares with rfl | ⟨top, rest, stack, rfl⟩
  · exact reaches_of_named rfl (fun id member => member) same
  · exact reaches_of_named rfl (named_below stack) same

end Machine

/-! ### Events -/

/-- The task that an event reports to run. -/
def Event.running? : Event → Option Task
  | .running task => some task
  | _ => none

theorem Event.mem_running? {events : List Event} {task : Task} :
    task ∈ events.filterMap running? ↔ .running task ∈ events := by
  rw [List.mem_filterMap]
  constructor
  · rintro ⟨event, member, told⟩
    cases event <;> cases told
    exact member
  · intro member
    exact ⟨_, member, rfl⟩

theorem Event.running?_silent {events : List Event} (silent : ∀ task, .running task ∉ events) :
    events.filterMap running? = [] :=
  List.eq_nil_iff_forall_not_mem.mpr fun task told => silent task (mem_running?.mp told)

/-! ### Steps -/

namespace Engine

variable {engine after : Engine σ} {calls : Nat} {dropped reach : List CellId} {frame : Frame}
  {task : Task} {pending : List Task}

/-- The place in the queue of the task that a request takes out of it. Only a step
of an idle engine takes one, which is the first that is ready. -/
def taken? (engine : Engine σ) : Request → Option Nat
  | .step =>
    match engine.frame, engine.queue.select engine.store with
    | none, .ready skipped _ _ => some skipped.length
    | _, _ => none
  | _ => none

/-- The pending tasks that a request leaves in the queue. -/
def remaining (engine : Engine σ) (request : Request) : List Task :=
  match engine.taken? request with
  | some place => engine.queue.tasks.eraseIdx place
  | none => engine.queue.tasks

/-- The cells that the next step can work on: those that the running frame can
name, or those of the task that the step takes. -/
def stepReach (engine : Engine σ) : List CellId :=
  match engine.frame, engine.queue.select engine.store with
  | some frame, _ => frame.mentions
  | none, .ready _ task _ => task.cells
  | none, _ => []

/-- The step of an engine that reaches the cells in `reach` and leaves the tasks
in `pending`. -/
structure Moves (reach : List CellId) (pending : List Task) (engine after : Engine σ) : Prop where
  queue : ∃ pushed, after.queue.tasks = pending ++ pushed ∧
    ∀ task ∈ pushed, ∀ id ∈ task.cells, id ∈ reach
  named : ∀ id ∈ mentionsOf after.frame, id ∈ reach ∨ id = engine.store.freshId
  cells : engine.store.Follows reach after.store

private theorem moves_idle (queue : after.queue.tasks = pending) (idle : after.frame = none)
    (cells : engine.store.Follows reach after.store) : Moves reach pending engine after where
  queue := ⟨[], by rw [queue, List.append_nil], fun task member => by cases member⟩
  named id member := by simp [idle, mentionsOf] at member
  cells := cells

private theorem moves_machine {machine : Machine}
    (reaches : (engine.machine frame).Reaches machine) {next : Engine σ}
    (queue : next.queue = machine.queue) (store : next.store = machine.store)
    (named : ∀ id ∈ mentionsOf next.frame, id ∈ machine.frame.mentions) :
    Moves frame.mentions engine.queue.tasks engine next where
  queue := by rw [queue]; exact reaches.queue
  named id member := reaches.named id (named id member)
  cells := by rw [store]; exact reaches.cells

/-- A frame reaches what it can name. -/
theorem advance_moves (engine : Engine σ) (running : engine.frame = some frame)
    (kept : engine.Kept calls dropped) (few : calls < UInt32.size) :
    Moves frame.mentions engine.queue.tasks engine (engine.advance frame).2 := by
  have books := machine_kept running kept
  unfold advance
  cases engine.program.get? frame.label with
  | none =>
    refine moves_machine (Machine.spares_reaches (.inl rfl)) rfl rfl fun id member => ?_
    simpa [fail, running, mentionsOf, machine] using member
  | some function =>
    dsimp only
    cases function.commands[frame.position.toNat]? with
    | none =>
      refine moves_idle rfl rfl fun id cell cell' before now => ?_
      obtain ⟨bound, same⟩ := Store.follows_retire frame.task.cells id cell cell' before now
      refine ⟨bound, fun outside => same fun listed => outside ?_⟩
      exact List.mem_append.mpr (.inl (List.mem_append.mpr (.inl listed)))
    | some command =>
      dsimp only
      cases executed : (engine.machine frame).execute engine.policy command with
      | ok machine =>
        have rule := Machine.execute_ok_iff.mp executed
        exact moves_machine (Machine.executes_reaches books few rule) rfl rfl fun _ member => member
      | error stopped =>
        obtain ⟨stop, left⟩ := stopped
        have spares := Machine.execute_spares (Machine.shared_live books) executed
        have reaches := Machine.spares_reaches spares
        cases stop with
        | fault fault => exact moves_machine reaches rfl rfl fun _ member => member
        | unsoundCall => exact moves_machine reaches rfl rfl fun _ member => member

private theorem invoke_moves {primitives : Primitives σ} {key : String}
    (idle : engine.frame = none)
    (inHand : Accounts calls (dropped ++ task.cells) engine.store engine.queue none) :
    Moves task.cells engine.queue.tasks engine (engine.invoke primitives key task).2 := by
  have same := Store.follows_refl task.cells engine.store
  unfold invoke
  split
  · exact moves_idle rfl idle same
  · split
    · exact moves_idle rfl idle same
    · rename_i results host reply
      unfold settle
      split
      · exact moves_idle rfl idle same
      · have live : ∀ binding ∈ task.outputs.zip results,
            engine.store.contains binding.1 = true := fun binding member =>
          inHand.balanced.live _ (by simp [Task.cells, (List.of_mem_zip member).1])
        obtain ⟨bound, done, mapped⟩ := Store.bindAll_live _ live
        have done : Store.bindAll ({ engine with host := host } : Engine σ).store
          (task.outputs.zip results) = .ok bound := done
        rw [done]
        refine moves_idle rfl idle (Store.follows_trans ?_ (Store.same_ids_of_map mapped)
          (Store.follows_retire task.cells))
        refine Store.follows_of_map mapped (fun id cell => (Store.rebound_follows _ id cell).1) ?_
        intro id cell outside
        refine (Store.rebound_follows _ id cell).2 fun member => outside ?_
        obtain ⟨binding, paired, rfl⟩ := List.mem_map.mp member
        exact List.mem_append.mpr (.inr (List.of_mem_zip paired).1)

private theorem dispatch_moves (primitives : Primitives σ) (engine : Engine σ)
    (idle : engine.frame = none)
    (inHand : Accounts calls (dropped ++ task.cells) engine.store engine.queue none)
    (few : calls < UInt32.size) :
    Moves task.cells engine.queue.tasks engine (engine.dispatch primitives task).2 := by
  unfold dispatch
  cases Target.resolve (primitives.provides engine.host) engine.program task.label with
  | none => exact moves_idle rfl idle (Store.follows_refl _ _)
  | some target =>
    cases target with
    | primitive key => exact invoke_moves idle inHand
    | function =>
      have moves := advance_moves { engine with frame := some (.start task) } rfl
        (accounts_start inHand) few
      have named : (Frame.start task).mentions = task.cells := by
        simp [Frame.mentions, Frame.start, Call.empty, Task.blank, Task.cells]
      rw [named] at moves
      exact ⟨moves.queue, moves.named, moves.cells⟩

theorem remaining_ready {skipped later : List Task} (idle : engine.frame = none)
    (chosen : engine.queue.select engine.store = .ready skipped task later) :
    engine.taken? .step = some skipped.length ∧ engine.remaining .step = skipped ++ later := by
  have place : engine.taken? .step = some skipped.length := by simp [taken?, idle, chosen]
  refine ⟨place, ?_⟩
  rw [remaining, place, (Selection.ready_eq chosen).1]
  simp [List.eraseIdx_append_of_length_le]

/-- A task is taken by a step of an idle engine that finds it ready. -/
theorem taken_cases {request : Request} {place : Nat}
    (taken : engine.taken? request = some place) :
    request = .step ∧ engine.frame = none ∧ ∃ skipped task later,
      engine.queue.select engine.store = .ready skipped task later ∧ skipped.length = place := by
  cases request with
  | seed name => cases taken
  | setPolicy policy => cases taken
  | step =>
    cases running : engine.frame with
    | some frame => simp [taken?, running] at taken
    | none =>
      cases chosen : engine.queue.select engine.store with
      | stalled skipped => simp [taken?, running, chosen] at taken
      | undecided skipped task fault => simp [taken?, running, chosen] at taken
      | ready skipped task later =>
        simp only [taken?, running, chosen, Option.some.injEq] at taken
        exact ⟨rfl, rfl, skipped, task, later, rfl, taken⟩

/-- The task that a step takes is ready. -/
theorem taken_ready {place : Nat} (taken : engine.taken? .step = some place)
    (queued : engine.queue.get? place = some task) : task.isReady engine.store = .ok true := by
  obtain ⟨-, -, skipped, found, later, chosen, rfl⟩ := taken_cases taken
  obtain ⟨shape, ready⟩ := Selection.ready_eq chosen
  rw [Queue.get?, shape, List.getElem?_append_right (Nat.le_refl _)] at queued
  cases (show some found = some task by simpa using queued)
  exact ready

/-- A step stays within its reach. -/
theorem step_moves (primitives : Primitives σ) (kept : engine.Kept calls dropped)
    (few : calls < UInt32.size) :
    Moves engine.stepReach (engine.remaining .step) engine (engine.step primitives).2 := by
  cases running : engine.frame with
  | some frame =>
    have moves := advance_moves engine running kept few
    simpa [step, stepReach, remaining, taken?, running] using moves
  | none =>
    have stays : engine.taken? .step = none →
        Moves engine.stepReach (engine.remaining .step) engine engine := fun none =>
      moves_idle (by rw [remaining, none]) running (Store.follows_refl _ _)
    simp only [step, running]
    unfold schedule
    split
    · rename_i empty
      refine stays ?_
      rw [taken?, Queue.select, List.isEmpty_iff.mp empty, Selection.ofTasks, running]
    · cases chosen : engine.queue.select engine.store with
      | stalled skipped => exact stays (by simp [taken?, running, chosen])
      | undecided skipped task fault => exact stays (by simp [taken?, running, chosen])
      | ready skipped task later =>
        obtain ⟨inHand, -⟩ := take_ready running kept chosen
        have moves := dispatch_moves primitives { engine with queue := ⟨skipped ++ later⟩ } running
          inHand few
        have within : engine.stepReach = task.cells := by simp [stepReach, running, chosen]
        rw [within, (remaining_ready running chosen).2]
        exact ⟨moves.queue, moves.named, moves.cells⟩

/-! ### The task that a step dispatches -/

/-- A release tells only of references that could not be given back. -/
theorem mem_releaseJournal {store : Store} {ids : List CellId} {event : Event}
    (told : event ∈ store.releaseJournal ids) :
    ∃ id, event = .unreferenced id ∨ event = .missing id := by
  induction ids generalizing store with
  | nil => cases told
  | cons id rest ih =>
    rw [Store.releaseJournal] at told
    split at told
    · rcases List.mem_append.mp told with here | later
      · unfold Store.decrefJournal at here
        split at here
        · exact ⟨id, .inl (List.mem_singleton.mp here)⟩
        · cases here
      · exact ih later
    · rcases List.mem_cons.mp told with here | later
      · exact ⟨id, .inr here⟩
      · exact ih later

/-- The end of a task tells of references, of cells that are swept, and of itself. -/
theorem mem_retireJournal {store : Store} {event : Event}
    (told : event ∈ retireJournal store task) :
    (∃ id, event = .unreferenced id ∨ event = .missing id) ∨
      (∃ id ∈ (store.release task.cells).garbage, event = .garbage id) ∨
      event = .finished task (store.release task.cells).garbage.length := by
  rcases List.mem_append.mp told with earlier | last
  · rcases List.mem_append.mp earlier with released | swept
    · exact .inl (mem_releaseJournal released)
    · obtain ⟨id, member, rfl⟩ := List.mem_map.mp swept
      exact .inr (.inl ⟨id, member, rfl⟩)
  · exact .inr (.inr (List.mem_singleton.mp last))

private theorem retireJournal_no_running (store : Store) (task other : Task) :
    .running other ∉ retireJournal store task := by
  intro told
  rcases mem_retireJournal told with ⟨id, same | same⟩ | ⟨id, -, same⟩ | same <;> cases same

private theorem advanceJournal_no_running (engine : Engine σ) (frame : Frame) (other : Task) :
    .running other ∉ engine.advanceJournal frame := by
  unfold advanceJournal
  split
  · simp
  · split
    · exact retireJournal_no_running _ _ _
    · unfold Machine.journal
      split
      · split <;> simp
      · simp

private theorem invokeJournal_no_running (primitives : Primitives σ) (engine : Engine σ)
    (key : String) (task other : Task) :
    .running other ∉ engine.invokeJournal primitives key task := by
  unfold invokeJournal
  split
  · simp
  · split
    · simp
    · split
      · simp
      · split
        · simp
        · simp [retireJournal_no_running]

private theorem dispatchJournal_running (primitives : Primitives σ) (engine : Engine σ)
    (task : Task) : (engine.dispatchJournal primitives task).filterMap Event.running? = [task] := by
  have told : (Event.running task).running? = some task := rfl
  rw [dispatchJournal, List.filterMap_cons_some told]
  refine congrArg (task :: ·) ?_
  split
  · rfl
  · exact Event.running?_silent (invokeJournal_no_running primitives engine _ task)
  · exact Event.running?_silent (advanceJournal_no_running engine (.start task))

/-- A step reports the one task that it takes from the queue, if it takes one. -/
theorem stepJournal_running (primitives : Primitives σ) (engine : Engine σ) :
    (engine.stepJournal primitives).filterMap Event.running? =
      ((engine.taken? .step).bind engine.queue.get?).toList := by
  cases running : engine.frame with
  | some frame =>
    simp only [stepJournal, running, taken?]
    exact Event.running?_silent (advanceJournal_no_running engine frame)
  | none =>
    have skips : ∀ skipped : List Task,
        (skipped.map Event.skip).filterMap Event.running? = [] := fun skipped =>
      Event.running?_silent fun task => by simp
    simp only [stepJournal, running, scheduleJournal, taken?, List.filterMap_append, skips]
    cases chosen : engine.queue.select engine.store with
    | stalled skipped => rfl
    | undecided skipped found fault => rfl
    | ready skipped found later =>
      have here : engine.queue.get? skipped.length = some found := by
        simp [Queue.get?, (Selection.ready_eq chosen).1]
      simp [dispatchJournal_running, here]

/-- A step reports that a task runs exactly if it takes that task from the queue. -/
theorem running_iff_taken {primitives : Primitives σ} :
    .running task ∈ engine.stepJournal primitives ↔
      ∃ place, engine.taken? .step = some place ∧ engine.queue.get? place = some task := by
  rw [← Event.mem_running?, stepJournal_running, Option.mem_toList, Option.bind_eq_some_iff]

end Engine

end Dataflow
