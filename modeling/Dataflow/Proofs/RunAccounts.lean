import Mathlib.Algebra.GroupWithZero.Nat
import Dataflow.Primitives.Scripted
import Dataflow.Proofs.Interleaving
import Dataflow.Proofs.NameProvenance
import Dataflow.Proofs.TaskConservation

/-! The counters of a run. An engine counts its steps, its store counts cells and sweeps, and
its queue grows by the tasks that functions enqueue. While no step fails, every function task
that is dispatched executes its whole body before another task is taken. So the commands that
an idle engine has reported are the bodies of its function tasks, one after another, and all
counters can be read off the tasks that were dispatched. -/
namespace Dataflow

/-! ### What commands leave of the counters -/

/-- Only `create` changes the number of cells or a counter of the store. -/
theorem Machine.executes_sameCounts {policy : ReadPolicy} {machine after : Machine}
    {command : Command} (rule : Executes policy machine command after)
    (other : command ≠ .create) : machine.store.SameCounts after.store := by
  cases rule with
  | create => exact absurd rfl other
  | assign stack bound => exact Store.update_sameCounts bound
  | assignTop stack read bound => exact Store.update_sameCounts bound
  | output stack raised => exact Store.update_sameCounts raised
  | input stack raised => exact Store.update_sameCounts raised
  | pushFunc stack sound raised =>
    exact Store.applyAll_sameCounts (fun done => Store.update_sameCounts done) raised
  | _ => exact Store.sameCounts_refl _

/-! ### What a journal tells -/

namespace Event

/-- The command that is executed. -/
def command? : Event → Option Command
  | .exec _ _ command => some command
  | _ => none

/-- The task that a function enqueues. -/
def enqueued? : Event → Option Task
  | .enqueue task => some task
  | _ => none

/-- A task is over. -/
def retires : Event → Bool
  | .finished _ _ => true
  | _ => false

/-- A cell is removed. -/
def sweeps : Event → Bool
  | .garbage _ => true
  | _ => false

/-- The commands executed, in order. -/
def commands (events : List Event) : List Command := events.filterMap command?

/-- The tasks that functions enqueued, in order. -/
def pushed (events : List Event) : List Task := events.filterMap enqueued?

/-- Number of tasks that came to their end. -/
def retired (events : List Event) : Nat := events.countP retires

/-- Number of cells removed. -/
def swept (events : List Event) : Nat := events.countP sweeps

@[simp] theorem commands_append (events later : List Event) :
    commands (events ++ later) = commands events ++ commands later :=
  List.filterMap_append

@[simp] theorem pushed_append (events later : List Event) :
    pushed (events ++ later) = pushed events ++ pushed later :=
  List.filterMap_append

@[simp] theorem retired_append (events later : List Event) :
    retired (events ++ later) = retired events + retired later :=
  List.countP_append

@[simp] theorem swept_append (events later : List Event) :
    swept (events ++ later) = swept events + swept later :=
  List.countP_append

/-- Events that tell of none of this. -/
structure Aside (events : List Event) : Prop where
  commands : commands events = []
  pushed : pushed events = []
  retired : retired events = 0
  swept : swept events = 0

theorem aside_of_forall {events : List Event}
    (aside : ∀ event ∈ events, event.command? = none ∧ event.enqueued? = none ∧
      event.retires = false ∧ event.sweeps = false) : Aside events where
  commands := List.filterMap_eq_nil_iff.mpr fun event member => (aside event member).1
  pushed := List.filterMap_eq_nil_iff.mpr fun event member => (aside event member).2.1
  retired := List.countP_eq_zero.mpr fun event member =>
    Bool.eq_false_iff.mp (aside event member).2.2.1
  swept := List.countP_eq_zero.mpr fun event member =>
    Bool.eq_false_iff.mp (aside event member).2.2.2

end Event

/-- The end of a task tells of itself and of every cell that is removed. -/
theorem Engine.retireJournal_tells (store : Store) (task : Task) :
    let events := retireJournal store task
    Event.commands events = [] ∧ Event.pushed events = [] ∧ Event.retired events = 1 ∧
      Event.swept events = (store.release task.cells).garbage.length := by
  intro events
  have released : Event.Aside (store.releaseJournal task.cells) := by
    refine Event.aside_of_forall fun event member => ?_
    obtain ⟨id, rfl | rfl⟩ := mem_releaseJournal member <;> exact ⟨rfl, rfl, rfl, rfl⟩
  have removed : ∀ ids : List CellId, Event.commands (ids.map .garbage) = [] ∧
      Event.pushed (ids.map .garbage) = [] ∧ Event.retired (ids.map .garbage) = 0 ∧
      Event.swept (ids.map .garbage) = ids.length := by
    intro ids
    simp [Event.commands, Event.pushed, Event.retired, Event.swept, List.filterMap_map,
      List.countP_map, Function.comp_def, Event.command?, Event.enqueued?, Event.retires,
      Event.sweeps]
  obtain ⟨commands, pushed, retired, swept⟩ := removed (store.release task.cells).garbage
  simp only [events, retireJournal, Store.collectJournal, Event.commands_append,
    Event.pushed_append, Event.retired_append, Event.swept_append, released.commands,
    released.pushed, released.retired, released.swept, commands, pushed, retired, swept]
  exact ⟨rfl, rfl, rfl, Nat.zero_add _⟩

/-- A command that completes tells of the task that it enqueues and of nothing else. -/
theorem Machine.journal_tells {policy : ReadPolicy} {machine after : Machine} {command : Command}
    (rule : Executes policy machine command after) :
    let events := machine.journal policy command
    Event.commands events = [] ∧ Event.pushed events = machine.frame.commandIssues command ∧
      Event.retired events = 0 ∧ Event.swept events = 0 := by
  have executed := execute_ok_iff.mpr rule
  cases rule with
  | pushFunc stack sound raised =>
    simp only [journal, executed, Frame.commandIssues, stack]
    exact ⟨rfl, rfl, rfl, rfl⟩
  | _ => exact ⟨rfl, rfl, rfl, rfl⟩

/-- One task is enqueued by each `push_func` that completes. -/
theorem Machine.executes_issues_one {policy : ReadPolicy} {machine after : Machine}
    {command : Command} (rule : Executes policy machine command after) :
    (machine.frame.commandIssues command).length = [command].count .pushFunc := by
  cases rule with
  | pushFunc stack sound raised =>
    simp only [Frame.commandIssues, stack]
    rfl
  | _ => rfl

/-! ### Tasks that are dispatched -/

/-- A task that has left the queue, and what its name stands for. -/
inductive Dispatch where
  | primitive (task : Task) (key : String)
  | function (task : Task) (function : Function)
deriving DecidableEq

namespace Dispatch

def task : Dispatch → Task
  | .primitive task _ => task
  | .function task _ => task

def function? : Dispatch → Option Function
  | .primitive _ _ => none
  | .function _ called => some called

def isPrimitive : Dispatch → Bool
  | .primitive _ _ => true
  | .function _ _ => false

/-- The commands that the task executes. -/
def commands : Dispatch → List Command
  | .primitive _ _ => []
  | .function _ called => called.commands

/-- The body of a function task is that of the function that the program has now. -/
def ofTarget (program : Program) (task : Task) : Target → Option Dispatch
  | .primitive key => some (.primitive task key)
  | .function => (program.get? task.label).map (.function task)

end Dispatch

namespace Engine

variable {primitives : Primitives σ} {engine middle after : Engine σ} {frame : Frame} {task : Task}
  {step : Step} {calls more : Nat} {dropped : List CellId} {dispatched : List Dispatch}
  {events : List Event}

/-- The task that the next step dispatches, if it dispatches one. -/
def dispatched? (primitives : Primitives σ) (engine : Engine σ) : Option Dispatch := do
  let place ← engine.taken? .step
  let task ← engine.queue.get? place
  let target ← Target.resolve (primitives.provides engine.host) engine.program task.label
  Dispatch.ofTarget engine.program task target

/-- The tasks dispatched by the steps of a history, in order. -/
def dispatches (primitives : Primitives σ) : Engine σ → List Request → List Dispatch
  | _, [] => []
  | engine, .step :: rest =>
    (engine.dispatched? primitives).toList ++
      (engine.serve primitives .step).2.dispatches primitives rest
  | engine, request :: rest => (engine.serve primitives request).2.dispatches primitives rest

/-- The commands that the running function has yet to execute. -/
def ahead (engine : Engine σ) : List Command :=
  match engine.frame with
  | none => []
  | some frame =>
    match engine.program.get? frame.label with
    | none => []
    | some function => function.commands.drop frame.position.toNat

/-- Number of functions that are running, which is one at most. -/
def underway (engine : Engine σ) : Nat := engine.frame.toList.length

/-- A part of a history without failures, in which at most `calls` steps make progress: the
tasks that it dispatches, the events that it reports, and the engine before and after it. The
commands of the dispatched tasks are those that were executed or are still ahead, and every
counter follows the events. -/
structure Stretch (calls : Nat) (dispatched : List Dispatch) (events : List Event)
    (engine after : Engine σ) : Prop where
  commands : engine.ahead ++ dispatched.flatMap Dispatch.commands =
    Event.commands events ++ after.ahead
  tasks : engine.underway + dispatched.length = Event.retired events + after.underway
  pushed : (Event.pushed events).length = (Event.commands events).count .pushFunc
  paid : (Event.commands events).length + Event.retired events ≤ calls
  steps : after.steps =
    engine.steps + .ofNat ((Event.commands events).length + Event.retired events)
  allocations : after.store.allocations =
    engine.store.allocations + .ofNat ((Event.commands events).count .create)
  collections : after.store.collections = engine.store.collections + .ofNat (Event.retired events)
  collected : after.store.collected = engine.store.collected + .ofNat (Event.swept events)
  live : after.store.size + Event.swept events =
    engine.store.size + (Event.commands events).count .create

theorem Stretch.trans {later : List Dispatch} {rest : List Event}
    (first : Stretch calls dispatched events engine middle)
    (second : Stretch more later rest middle after) :
    Stretch (calls + more) (dispatched ++ later) (events ++ rest) engine after where
  commands := by
    rw [List.flatMap_append, ← List.append_assoc, first.commands, List.append_assoc,
      second.commands, Event.commands_append, List.append_assoc]
  tasks := by
    have left := first.tasks
    have right := second.tasks
    rw [List.length_append, Event.retired_append]
    omega
  pushed := by
    rw [Event.pushed_append, Event.commands_append, List.length_append, List.count_append,
      first.pushed, second.pushed]
  paid := by
    have left := first.paid
    have right := second.paid
    rw [Event.commands_append, Event.retired_append, List.length_append]
    omega
  steps := by
    rw [second.steps, first.steps, UInt64.add_assoc, ← UInt64.ofNat_add, Event.commands_append,
      Event.retired_append, List.length_append]
    congr 2
    omega
  allocations := by
    rw [second.allocations, first.allocations, UInt64.add_assoc, ← UInt64.ofNat_add,
      Event.commands_append, List.count_append]
  collections := by
    rw [second.collections, first.collections, UInt64.add_assoc, ← UInt64.ofNat_add,
      Event.retired_append]
  collected := by
    rw [second.collected, first.collected, UInt64.add_assoc, ← UInt64.ofNat_add,
      Event.swept_append]
  live := by
    have left := first.live
    have right := second.live
    rw [Event.swept_append, Event.commands_append, List.count_append]
    omega

/-- Nothing is executed and nothing ends, and the counters stay as they are. -/
theorem stretch_aside (aside : Event.Aside events)
    (commands : engine.ahead ++ dispatched.flatMap Dispatch.commands = after.ahead)
    (tasks : engine.underway + dispatched.length = after.underway)
    (steps : after.steps = engine.steps) (store : after.store = engine.store) :
    Stretch 0 dispatched events engine after where
  commands := by rw [aside.commands, commands, List.nil_append]
  tasks := by rw [aside.retired, tasks, Nat.zero_add]
  pushed := by rw [aside.pushed, aside.commands]; rfl
  paid := by rw [aside.commands, aside.retired]; exact Nat.le_refl 0
  steps := by simp [aside.commands, aside.retired, steps]
  allocations := by simp [aside.commands, store]
  collections := by simp [aside.retired, store]
  collected := by simp [aside.swept, store]
  live := by simp [aside.commands, aside.swept, store]

/-- The end of a task, be it of a function or of a primitive. The store is swept once. -/
theorem stretch_retire {store : Store} (aside : Event.Aside events)
    (counts : engine.store.SameCounts store)
    (swept : after.store = (store.release task.cells).collect)
    (steps : after.steps = engine.steps + 1)
    (commands : engine.ahead ++ dispatched.flatMap Dispatch.commands = after.ahead)
    (tasks : engine.underway + dispatched.length = 1 + after.underway) :
    Stretch 1 dispatched (events ++ retireJournal store task) engine after := by
  obtain ⟨noCommands, noTasks, one, removed⟩ := retireJournal_tells store task
  have same := counts.trans (store.release_sameCounts task.cells)
  have executed : Event.commands (events ++ retireJournal store task) = [] := by
    rw [Event.commands_append, aside.commands, noCommands, List.nil_append]
  have retired : Event.retired (events ++ retireJournal store task) = 1 := by
    rw [Event.retired_append, aside.retired, one]
  have gone : Event.swept (events ++ retireJournal store task) =
      (store.release task.cells).garbage.length := by
    rw [Event.swept_append, aside.swept, removed, Nat.zero_add]
  constructor
  · rw [executed, commands, List.nil_append]
  · rw [retired, tasks]
  · rw [executed, Event.pushed_append, aside.pushed, noTasks]
    rfl
  · rw [executed, retired]
    exact Nat.le_refl 1
  · rw [executed, retired, steps]
    rfl
  · rw [executed, swept]
    exact same.allocations.trans (UInt64.add_zero _).symm
  · rw [retired, swept]
    exact congrArg (· + 1) same.collections
  · rw [gone, swept]
    exact congrArg (· + .ofNat (store.release task.cells).garbage.length) same.collected
  · rw [gone, executed, swept, Store.size_collect, same.size]
    rfl

/-- What a command that completes adds to the counters of the store. -/
theorem executes_counts {machine next : Machine} {policy : ReadPolicy} {command : Command}
    (kept : machine.Kept calls dropped) (few : calls < UInt32.size)
    (rule : Machine.Executes policy machine command next) :
    next.store.allocations = machine.store.allocations + .ofNat ([command].count .create) ∧
      next.store.collections = machine.store.collections ∧
      next.store.collected = machine.store.collected ∧
      next.store.size = machine.store.size + [command].count .create := by
  by_cases creates : command = .create
  · subst creates
    cases rule with
    | create =>
      have new := Store.freshId_not_live (id_room kept few)
      exact ⟨rfl, rfl, rfl, Store.size_allocate new⟩
  · have same := Machine.executes_sameCounts rule creates
    rw [List.count_singleton, if_neg (by simpa using creates)]
    exact ⟨same.allocations.trans (UInt64.add_zero _).symm, same.collections, same.collected,
      same.size⟩

/-- The running function executes the first of the commands ahead of it, or ends if there are
none. -/
theorem advances_stretch (running : engine.frame = some frame) (kept : engine.Kept calls dropped)
    (few : calls < UInt32.size) (room : frame.position.toNat + 1 < UInt64.size)
    (advances : Advances engine frame step after) :
    Stretch 1 [] (engine.advanceJournal frame) engine after := by
  cases advances with
  | finish found ended =>
    have nothing : engine.ahead = [] := by
      simp only [ahead, running, found]
      exact List.drop_eq_nil_of_le (List.getElem?_eq_none_iff.mp ended)
    have journal : engine.advanceJournal frame = [] ++ retireJournal engine.store frame.task := by
      simp only [advanceJournal, found, ended, List.nil_append]
    rw [journal]
    refine stretch_retire ⟨rfl, rfl, rfl, rfl⟩ (Store.sameCounts_refl _) rfl rfl ?_ ?_
    · rw [nothing]
      rfl
    · simp [underway, running]
  | @command function command machine found here rule =>
    obtain ⟨within, same⟩ := List.getElem?_eq_some_iff.mp here
    have next : (frame.position + 1).toNat = frame.position.toNat + 1 := by
      rw [UInt64.toNat_add]
      exact Nat.mod_eq_of_lt room
    have label : machine.frame.label = frame.label :=
      congrArg Task.label (Machine.executes_carries rule).task
    have journal : engine.advanceJournal frame =
        [.exec frame.label frame.position command] ++
          (engine.machine frame).journal engine.policy command := by
      simp only [advanceJournal, found, here, List.singleton_append]
    obtain ⟨noCommands, pushed, noRetired, noSwept⟩ := Machine.journal_tells rule
    have executed : Event.commands (engine.advanceJournal frame) = [command] := by
      rw [journal, Event.commands_append, noCommands]
      rfl
    have retired : Event.retired (engine.advanceJournal frame) = 0 := by
      rw [journal, Event.retired_append, noRetired]
      rfl
    have swept : Event.swept (engine.advanceJournal frame) = 0 := by
      rw [journal, Event.swept_append, noSwept]
      rfl
    obtain ⟨allocations, collections, collected, size⟩ :=
      executes_counts (machine_kept running kept) few rule
    constructor
    · rw [executed, List.flatMap_nil, List.append_nil]
      simp only [ahead, running, found]
      rw [show Frame.label { machine.frame with position := frame.position + 1 } = frame.label
        from label, found]
      dsimp only
      rw [next, List.drop_eq_getElem_cons within, same]
      rfl
    · rw [retired]
      simp [underway, running]
    · rw [executed, journal, Event.pushed_append, pushed]
      exact Machine.executes_issues_one rule
    · rw [executed, retired]
      exact Nat.le_refl 1
    · rw [executed, retired]
      rfl
    · rw [executed]
      exact allocations
    · rw [retired]
      exact collections.trans (UInt64.add_zero _).symm
    · rw [swept]
      exact collected.trans (UInt64.add_zero _).symm
    · rw [swept, executed]
      exact size

theorem Stretch.mono (stretch : Stretch calls dispatched events engine after)
    (within : calls ≤ more) : Stretch more dispatched events engine after :=
  { stretch with paid := Nat.le_trans stretch.paid within }

private theorem skips_aside (skipped : List Task) (events : List Event)
    (aside : Event.Aside events) : Event.Aside (skipped.map .skip ++ events) := by
  have skips : Event.Aside (skipped.map .skip) := by
    refine Event.aside_of_forall fun event member => ?_
    obtain ⟨task, -, rfl⟩ := List.mem_map.mp member
    exact ⟨rfl, rfl, rfl, rfl⟩
  constructor
  · rw [Event.commands_append, skips.commands, aside.commands, List.nil_append]
  · rw [Event.pushed_append, skips.pushed, aside.pushed, List.nil_append]
  · rw [Event.retired_append, skips.retired, aside.retired]
  · rw [Event.swept_append, skips.swept, aside.swept]

theorem ready_get? {skipped later : List Task}
    (chosen : engine.queue.select engine.store = .ready skipped task later) :
    engine.queue.get? skipped.length = some task := by
  simp [Queue.get?, (Selection.ready_eq chosen).1]

theorem advances_found (advances : Advances engine frame step after) :
    ∃ function, engine.program.get? frame.label = some function := by
  cases advances with
  | finish found ended => exact ⟨_, found⟩
  | command found here rule => exact ⟨_, found⟩

/-- A task that is taken is dispatched as what its name stands for. -/
theorem dispatched?_eq {skipped later : List Task} {target : Target} (idle : engine.frame = none)
    (chosen : engine.queue.select engine.store = .ready skipped task later)
    (resolved : Target.resolve (primitives.provides engine.host) engine.program task.label =
      some target) :
    engine.dispatched? primitives = Dispatch.ofTarget engine.program task target := by
  simp only [dispatched?, (remaining_ready idle chosen).1, Option.bind_eq_bind, Option.bind_some,
    ready_get? chosen, resolved]

/-- The position of the running function, if there is one, is at most the number of steps. -/
def Early (calls : Nat) (engine : Engine σ) : Prop :=
  ∀ frame, engine.frame = some frame → frame.position.toNat ≤ calls

theorem advances_early (early : frame.position.toNat ≤ calls)
    (advances : Advances engine frame step after) : after.Early (calls + 1) := by
  intro next running
  cases advances with
  | finish found ended => cases running
  | command found here rule =>
    cases running
    have wrapped : (frame.position + 1).toNat ≤ frame.position.toNat + 1 := by
      rw [UInt64.toNat_add]
      exact Nat.mod_le _ _
    exact Nat.le_trans wrapped (Nat.succ_le_succ early)

theorem steps_early (early : engine.Early calls) (steps : Steps primitives engine step after) :
    after.Early (calls + 1) := by
  cases steps with
  | advance running advances => exact advances_early (early _ running) advances
  | halt idle nothing => exact fun frame running => Nat.le_succ_of_le (early frame running)
  | dispatch idle chosen dispatches =>
    cases dispatches with
    | primitive target read replied enough bound =>
      exact fun frame running => Nat.le_succ_of_le (early frame running)
    | function target advances => exact advances_early (Nat.zero_le _) advances

/-- Every step that completes is a stretch. -/
theorem steps_stretch (kept : engine.Kept calls dropped) (few : calls < UInt32.size)
    (early : engine.Early calls) (steps : Steps primitives engine step after) :
    Stretch 1 (engine.dispatched? primitives).toList (engine.stepJournal primitives) engine
      after := by
  have room : calls + 1 < UInt64.size := by
    have := word_room few
    omega
  cases steps with
  | @advance frame _ _ running advances =>
    have untaken : engine.dispatched? primitives = none := by
      simp only [dispatched?, taken?, running, Option.bind_eq_bind, Option.bind_none]
    have within := early frame running
    rw [untaken, stepJournal, running]
    exact advances_stretch running kept few (by omega) advances
  | @halt skipped idle nothing =>
    have untaken : engine.dispatched? primitives = none := by
      simp only [dispatched?, taken?, idle, nothing, Option.bind_eq_bind, Option.bind_none]
    have journal : engine.stepJournal primitives = skipped.map .skip ++ [] := by
      simp only [stepJournal, idle, scheduleJournal, nothing, Selection.skipped]
    rw [untaken, journal]
    have aside := skips_aside skipped [] ⟨rfl, rfl, rfl, rfl⟩
    exact (stretch_aside aside (List.append_nil _) rfl rfl rfl).mono (Nat.zero_le 1)
  | @dispatch skipped later task _ _ idle chosen dispatches =>
    have silent : engine.ahead = [] := by simp only [ahead, idle]
    have alone : engine.underway = 0 := by simp [underway, idle]
    cases dispatches with
    | @primitive key values results host store target read replied enough bound =>
      have journal : engine.stepJournal primitives =
          skipped.map .skip ++ [.running task, .returned key values results] ++
            retireJournal store task := by
        simp only [stepJournal, idle, scheduleJournal, chosen, Selection.skipped, dispatchJournal,
          target, invokeJournal, read, replied, Nat.not_lt.mpr enough, if_false, bound,
          List.append_assoc, List.cons_append, List.nil_append]
      rw [dispatched?_eq idle chosen target, journal]
      refine stretch_retire (skips_aside skipped _ ⟨rfl, rfl, rfl, rfl⟩)
        (Store.bindAll_sameCounts bound) rfl rfl ?_ ?_
      · rw [silent]
        simp [Dispatch.ofTarget, Dispatch.commands, ahead, idle]
      · rw [alone]
        simp [Dispatch.ofTarget, underway, idle]
    | function target advances =>
      obtain ⟨inHand, -⟩ := take_ready idle kept chosen
      obtain ⟨function, found⟩ : ∃ function, engine.program.get? task.label = some function :=
        advances_found advances
      let started : Engine σ :=
        { engine with queue := ⟨skipped ++ later⟩, frame := some (.start task) }
      have journal : engine.stepJournal primitives =
          skipped.map .skip ++ [.running task] ++ started.advanceJournal (.start task) := by
        simp only [stepJournal, idle, scheduleJournal, chosen, Selection.skipped, dispatchJournal,
          target, List.append_assoc, List.singleton_append]
        rfl
      have entering : Stretch 0 [.function task function] (skipped.map .skip ++ [.running task])
          engine started := by
        refine stretch_aside (skips_aside skipped _ ⟨rfl, rfl, rfl, rfl⟩) ?_ ?_ rfl rfl
        · have label : (Frame.start task).label = task.label := rfl
          rw [silent]
          simp only [started, ahead, label, found]
          simp [Dispatch.commands, Frame.start]
        · rw [alone]
          rfl
      have goesOn : Stretch 1 [] (started.advanceJournal (.start task)) started after :=
        advances_stretch rfl (accounts_start inHand) few (show 0 + 1 < _ by decide) advances
      rw [dispatched?_eq idle chosen target, Dispatch.ofTarget, found, journal]
      exact entering.trans goesOn

/-- A history without failures is a stretch. -/
theorem faultless_stretch (kept : engine.Kept calls dropped) (early : engine.Early calls)
    (requests : List Request) (few : calls + requests.count .step < UInt32.size)
    (faultless : engine.Faultless primitives requests) :
    Stretch (requests.count .step) (engine.dispatches primitives requests)
      (engine.journal primitives requests) engine (engine.after primitives requests) := by
  have nothing : Event.Aside [] := ⟨rfl, rfl, rfl, rfl⟩
  induction requests generalizing engine calls dropped with
  | nil => exact stretch_aside nothing (List.append_nil _) rfl rfl rfl
  | cons request rest ih =>
    cases request with
    | seed name =>
      have later := ih (seed_kept name kept) early (by simpa using few) faultless.2
      have seeded : Stretch 0 [] [] engine (engine.seed name) :=
        stretch_aside nothing (List.append_nil _) rfl rfl rfl
      simpa [dispatches, journal, Engine.after, serve] using seeded.trans later
    | setPolicy policy =>
      have same : (engine.setPolicy policy).Kept calls dropped := kept
      have later := ih same early (by simpa using few) faultless.2
      have retuned : Stretch 0 [] [] engine (engine.setPolicy policy) :=
        stretch_aside nothing (List.append_nil _) rfl rfl rfl
      simpa [dispatches, journal, Engine.after, serve] using retuned.trans later
    | step =>
      rw [List.count_cons_self] at few ⊢
      obtain ⟨step, after, stepped, later⟩ := faultless_step faultless
      have steps := step_ok_iff.mp stepped
      have books : (engine.step primitives).2.Kept _ _ := (step_sound kept (by omega)).1
      rw [stepped] at books
      have first := steps_stretch kept (by omega) early steps
      have rest := ih books (steps_early early steps) (by omega) later
      simp only [dispatches, journal, Engine.after, serve, stepped]
      rw [Nat.add_comm]
      exact first.trans rest

/-! ### The docket of a history without failures -/

/-- A step that completes reports the task that it dispatches. -/
theorem steps_dispatched (steps : Steps primitives engine step after) :
    (engine.dispatched? primitives).toList.map Dispatch.task =
      (engine.stepJournal primitives).filterMap Event.running? := by
  rw [stepJournal_running]
  cases steps with
  | advance running advances => simp [dispatched?, taken?, running]
  | halt idle nothing => simp [dispatched?, taken?, idle, nothing]
  | @dispatch skipped later task _ _ idle chosen dispatches =>
    rw [(remaining_ready idle chosen).1, Option.bind_some, ready_get? chosen]
    cases dispatches with
    | primitive target read replied enough bound =>
      rw [dispatched?_eq idle chosen target]
      rfl
    | function target advances =>
      obtain ⟨function, found⟩ : ∃ function, engine.program.get? task.label = some function :=
        advances_found advances
      rw [dispatched?_eq idle chosen target, Dispatch.ofTarget, found]
      rfl

theorem advances_pushed (advances : Advances engine frame step after) :
    Event.pushed (engine.advanceJournal frame) = engine.advanceIssues frame := by
  cases advances with
  | finish found ended =>
    simp only [advanceJournal, advanceIssues, found, ended]
    exact (retireJournal_tells engine.store frame.task).2.1
  | command found here rule =>
    simp only [advanceJournal, advanceIssues, found, here]
    exact (Machine.journal_tells rule).2.1

/-- A step that completes reports the tasks that it enqueues. -/
theorem steps_pushed (steps : Steps primitives engine step after) :
    Event.pushed (engine.stepJournal primitives) = engine.enqueues .step := by
  cases steps with
  | advance running advances =>
    simp only [stepJournal, enqueues, running]
    exact advances_pushed advances
  | @halt skipped idle nothing =>
    simp only [stepJournal, enqueues, idle, scheduleJournal, nothing, Selection.skipped]
    exact (skips_aside skipped [] ⟨rfl, rfl, rfl, rfl⟩).pushed
  | @dispatch skipped later task _ _ idle chosen dispatches =>
    simp only [stepJournal, enqueues, idle, scheduleJournal, chosen, Selection.skipped,
      dispatchJournal]
    have taken := (skips_aside skipped [.running task] ⟨rfl, rfl, rfl, rfl⟩).pushed
    rw [← List.singleton_append, ← List.append_assoc, Event.pushed_append, taken, List.nil_append]
    cases dispatches with
    | @primitive key values results host store target read replied enough bound =>
      dsimp only at target read bound
      simp only [target, invokeJournal, read, replied, Nat.not_lt.mpr enough, if_false, bound]
      exact (retireJournal_tells store task).2.1
    | function target advances =>
      dsimp only at target
      simp only [target]
      exact (advances_pushed advances).trans (advanceIssues_start _ task)

end Engine

/-- The task that a request enqueues from outside. -/
def Request.seeded? : Request → Option Task
  | .seed name => some (.named name)
  | _ => none

namespace Engine

variable {primitives : Primitives σ} {engine : Engine σ}

/-- All tasks enqueued in a history without failures were seeded or pushed by functions. -/
theorem docket_interleaves {docket : Docket} {seeded pushed : List Task}
    (merged : Interleaving seeded pushed docket.enqueued) (requests : List Request)
    (faultless : engine.Faultless primitives requests) :
    Interleaving (seeded ++ requests.filterMap Request.seeded?)
      (pushed ++ Event.pushed (engine.journal primitives requests))
      (engine.docket primitives docket requests).enqueued := by
  induction requests generalizing engine docket seeded pushed with
  | nil => simpa [journal, Event.pushed, Engine.docket] using merged
  | cons request rest ih =>
    have grown : Interleaving (seeded ++ [request].filterMap Request.seeded?)
        (pushed ++ Event.pushed (engine.serveJournal primitives request))
        (docket.note (engine.taken? request) (engine.enqueues request)).enqueued := by
      have noted : (docket.note (engine.taken? request) (engine.enqueues request)).enqueued =
          docket.enqueued ++ engine.enqueues request := by
        cases engine.taken? request <;> rfl
      rw [noted]
      cases request with
      | seed name =>
        change Interleaving (seeded ++ [.named name]) (pushed ++ []) _
        rw [List.append_nil]
        exact merged.append_left _
      | setPolicy policy =>
        change Interleaving (seeded ++ []) (pushed ++ []) (docket.enqueued ++ [])
        rwa [List.append_nil, List.append_nil, List.append_nil]
      | step =>
        obtain ⟨step, after, stepped, -⟩ := faultless_step faultless
        have told : Event.pushed (engine.serveJournal primitives .step) = engine.enqueues .step :=
          steps_pushed (step_ok_iff.mp stepped)
        change Interleaving (seeded ++ []) _ _
        rw [told, List.append_nil]
        exact (merged.swap.append_left _).swap
    rw [journal_cons, Event.pushed_append, ← List.append_assoc, ← List.singleton_append,
      List.filterMap_append, ← List.append_assoc]
    exact ih grown faultless.2

/-- What was dispatched is what was reported to run. -/
theorem dispatches_reported (requests : List Request)
    (faultless : engine.Faultless primitives requests) :
    (engine.dispatches primitives requests).map Dispatch.task =
      (engine.journal primitives requests).filterMap Event.running? := by
  induction requests generalizing engine with
  | nil => rfl
  | cons request rest ih =>
    cases request with
    | seed name => exact ih faultless.2
    | setPolicy policy => exact ih faultless.2
    | step =>
      obtain ⟨step, after, stepped, -⟩ := faultless_step faultless
      rw [dispatches, journal, List.map_append, List.filterMap_append, ih faultless.2,
        steps_dispatched (step_ok_iff.mp stepped)]

/-- A function task runs the function of the program that bears its name. -/
theorem dispatches_found {task : Task} {function : Function} (requests : List Request)
    (member : .function task function ∈ engine.dispatches primitives requests) :
    engine.program.get? task.label = some function := by
  induction requests generalizing engine with
  | nil => cases member
  | cons request rest ih =>
    cases request with
    | seed name =>
      have later : .function task function ∈ (engine.seed name).dispatches primitives rest := member
      have found := ih later
      exact found
    | setPolicy policy =>
      have later : .function task function ∈ (engine.setPolicy policy).dispatches primitives rest :=
        member
      have found := ih later
      exact found
    | step =>
      rcases List.mem_append.mp member with now | later
      · simp only [dispatched?, Option.mem_toList, Option.bind_eq_bind, Option.bind_eq_some_iff]
          at now
        obtain ⟨place, -, found, -, target, -, dispatched⟩ := now
        cases target with
        | primitive key => cases dispatched
        | function =>
          obtain ⟨called, held, same⟩ := Option.map_eq_some_iff.mp dispatched
          cases same
          exact held
      · have same := step_program primitives engine
        rw [← same]
        exact ih later

end Engine

/-! ### The counters -/

namespace Dispatch

/-- Dispatched tasks execute the bodies of their functions. -/
theorem flatMap_commands (dispatched : List Dispatch) :
    dispatched.flatMap commands = (dispatched.filterMap function?).flatMap (·.commands) := by
  induction dispatched with
  | nil => rfl
  | cons dispatch rest ih =>
    cases dispatch with
    | primitive task key => exact ih
    | function task called => exact congrArg (called.commands ++ ·) ih

/-- Each of them takes one step more than it has commands. -/
theorem sum_steps (dispatched : List Dispatch) :
    ((dispatched.filterMap function?).map fun function => function.size + 1).sum +
      dispatched.countP isPrimitive = (dispatched.flatMap commands).length + dispatched.length := by
  induction dispatched with
  | nil => rfl
  | cons dispatch rest ih =>
    cases dispatch with
    | primitive task key =>
      simp only [List.filterMap_cons, function?, List.flatMap_cons, commands, List.nil_append,
        List.countP_cons, isPrimitive, if_true, List.length_cons]
      omega
    | function task called =>
      simp only [List.filterMap_cons, function?, List.flatMap_cons, commands, List.countP_cons,
        isPrimitive, Bool.false_eq_true, if_false, List.length_cons, List.map_cons, List.sum_cons,
        List.length_append]
      have size : called.size = called.commands.length := rfl
      omega

end Dispatch

namespace Engine

private theorem toNat_counted {counter : UInt64} {count : Nat}
    (counted : counter = 0 + .ofNat count) (few : count < UInt32.size) :
    counter.toNat = count := by
  rw [counted, UInt64.zero_add]
  exact UInt64.toNat_ofNat_of_lt' (Nat.lt_trans few (by decide))

/-- The counters follow from the dispatched tasks. As long as no step fails, an idle engine has
taken a step for each command of every function task, one more for the end of each of them, and
one for each primitive. It has swept the store once for each task, its cells are those that
`create` commands allocated less those that were swept, and beside the tasks that were seeded
it has enqueued one for each `push_func`. -/
theorem counters_follow_dispatches (primitives : Primitives σ) (program : Program) (host : σ)
    (requests : List Request) (few : requests.count .step < UInt32.size)
    (faultless : (ofProgram program host).Faultless primitives requests)
    (idle : ((ofProgram program host).after primitives requests).frame = none) :
    let start := ofProgram program host
    let engine := start.after primitives requests
    let docket := start.docket primitives .empty requests
    let dispatched := start.dispatches primitives requests
    let functions := dispatched.filterMap Dispatch.function?
    let pushed := Event.pushed (start.journal primitives requests)
    dispatched.map Dispatch.task = docket.dispatched.map (·.1) ∧
    (∀ task function, .function task function ∈ dispatched →
      program.get? task.label = some function) ∧
    engine.steps.toNat = (functions.map fun function => function.size + 1).sum +
      dispatched.countP Dispatch.isPrimitive ∧
    engine.store.collections.toNat = dispatched.length ∧
    engine.store.allocations.toNat =
      (functions.map fun function => function.commands.count .create).sum ∧
    engine.store.size + engine.store.collected.toNat = engine.store.allocations.toNat ∧
    Interleaving (requests.filterMap Request.seeded?) pushed docket.enqueued ∧
    pushed.length = (functions.map fun function => function.commands.count .pushFunc).sum := by
  intro start engine docket dispatched functions pushed
  have early : start.Early 0 := fun frame running => by cases running
  have stretch : Stretch (requests.count .step) dispatched (start.journal primitives requests)
      start engine :=
    faultless_stretch (new_kept program host) early requests (by omega) faultless
  have reported := (history_tracks primitives program host requests few).2
  -- an idle engine has nothing ahead, so all that was dispatched has been executed
  have executed : Event.commands (start.journal primitives requests) =
      functions.flatMap (·.commands) := by
    have whole := stretch.commands
    have nothing : engine.ahead = [] := by simp only [ahead, engine, start, idle]
    rw [nothing, List.append_nil, Dispatch.flatMap_commands] at whole
    exact whole.symm
  have retired : Event.retired (start.journal primitives requests) = dispatched.length := by
    have tasks := stretch.tasks
    have free : engine.underway = 0 := by simp [underway, engine, start, idle]
    rw [free, Nat.add_zero] at tasks
    exact tasks.symm.trans (Nat.zero_add _)
  have total : ∀ command, (functions.flatMap (·.commands)).count command =
      (functions.map fun function => function.commands.count command).sum := fun command =>
    List.count_flatMap
  have paid := stretch.paid
  have steps := stretch.steps
  have allocations := stretch.allocations
  have collections := stretch.collections
  have collected := stretch.collected
  have live := stretch.live
  have issued := stretch.pushed
  rw [executed, retired] at paid steps
  rw [executed] at allocations live issued
  rw [retired] at collections
  have created : (functions.flatMap (·.commands)).count .create ≤
      (functions.flatMap (·.commands)).length := List.count_le_length
  have allocated := toNat_counted allocations (by omega)
  have empty : start.store.size = 0 := rfl
  refine ⟨?_, fun task function member => dispatches_found requests member, ?_, ?_, ?_, ?_, ?_, ?_⟩
  · exact (dispatches_reported requests faultless).trans reported.symm
  · rw [toNat_counted steps (by omega), Dispatch.sum_steps, Dispatch.flatMap_commands]
  · exact toNat_counted collections (by omega)
  · rw [allocated, total]
  · rw [allocated, toNat_counted collected (by omega), live, empty, Nat.zero_add]
  · have none : Interleaving [] [] Docket.empty.enqueued := .nil
    exact docket_interleaves none requests faultless
  · exact issued.trans (total .pushFunc)

/-- The function hands one cell with a value and one without to a primitive and to a function
that does nothing. -/
private def countDemo : Program :=
  .ofFunctions
    [⟨"f", [.create, .assign 7, .input, .create, .output, .push "id", .pushFunc, .push "g",
    .pushFunc]⟩, ⟨"g", []⟩] (by decide)

private def countDemoRun : List Request := .seed "f" :: List.replicate 13 .step

private def countDemoPrimitives : Primitives Unit := .scripted [("id", .echo)]

/-- Three tasks and nine commands make twelve steps; a thirteenth finds nothing to do. -/
theorem counters_follow_dispatches_three :
    let start := ofProgram countDemo ()
    let engine := start.after countDemoPrimitives countDemoRun
    let dispatched := start.dispatches countDemoPrimitives countDemoRun
    countDemoRun.count .step < UInt32.size ∧ start.Faultless countDemoPrimitives countDemoRun ∧
      engine.frame = none ∧
      dispatched.map Dispatch.task = [.named "f", ⟨some "id", [1], [2]⟩, ⟨some "g", [1], [2]⟩] ∧
      engine.steps.toNat = 12 ∧ engine.store.collections.toNat = 3 ∧
      engine.store.allocations.toNat = 2 ∧
      engine.store.size + engine.store.collected.toNat = 2 ∧
      (Event.pushed (start.journal countDemoPrimitives countDemoRun)).length = 2 := by
  have faultless : (ofProgram countDemo ()).Faultless countDemoPrimitives countDemoRun :=
    ⟨rfl, rfl, rfl, rfl, rfl, rfl, rfl, rfl, rfl, rfl, rfl, rfl, rfl, rfl, trivial⟩
  obtain ⟨-, -, steps, sweeps, cells, live, -, pushed⟩ :=
    counters_follow_dispatches countDemoPrimitives countDemo () countDemoRun (by decide) faultless
      rfl
  exact ⟨by decide, faultless, rfl, rfl, steps, sweeps, cells, live.trans cells, pushed⟩

end Engine

end Dataflow
