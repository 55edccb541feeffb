import Dataflow.Primitives.Scripted
import Dataflow.Proofs.CallSoundness
import Dataflow.Proofs.LeakReport
import Dataflow.Proofs.StalledTasks

/-! A function task as one big step. A step executes one command and puts the frame back, so
the body of a function is spread over as many steps as it has commands, and one more for its
end. No task is dispatched in between, so these steps come to the same as executing the
commands one after the other, without an engine around them. -/
namespace Dataflow

namespace Machine

variable {machine after : Machine} {policy : ReadPolicy} {command : Command}
  {commands : List Command}

/-- Execute commands one after the other. -/
def executeAll (policy : ReadPolicy) (commands : List Command) (machine : Machine) :
    Attempt Machine :=
  commands.foldlM (fun machine command => machine.execute policy command) machine

theorem executeAll_cons (policy : ReadPolicy) (command : Command) (commands : List Command)
    (machine : Machine) :
    machine.executeAll policy (command :: commands) =
      machine.execute policy command >>= executeAll policy commands :=
  List.foldlM_cons

/-- Commands that complete are completed one by one. -/
theorem executeAll_concat_ok :
    machine.executeAll policy (commands ++ [command]) = .ok after ↔
      ∃ middle, machine.executeAll policy commands = .ok middle ∧
        middle.execute policy command = .ok after := by
  simp only [executeAll, List.foldlM_append, List.foldlM_cons, List.foldlM_nil, bind_pure]
  cases commands.foldlM (fun machine command => execute policy command machine) machine with
  | error stopped => simp [bind, Except.bind]
  | ok middle => simp [bind, Except.bind]

/-- The commands of a function leave its task alone. -/
theorem executeAll_task (ran : machine.executeAll policy commands = .ok after) :
    after.frame.task = machine.frame.task := by
  induction commands generalizing machine with
  | nil =>
    cases ran
    rfl
  | cons command commands ih =>
    rw [executeAll_cons] at ran
    cases executed : machine.execute policy command with
    | error stopped =>
      rw [executed] at ran
      cases ran
    | ok middle =>
      rw [executed] at ran
      exact (ih ran).trans (executes_carries (execute_ok_iff.mp executed)).task

/-- Commands that complete have completed every first part of them. -/
theorem executeAll_take_ok (ran : machine.executeAll policy commands = .ok after) (count : Nat) :
    ∃ middle, machine.executeAll policy (commands.take count) = .ok middle := by
  rw [← List.take_append_drop count commands, executeAll, List.foldlM_append] at ran
  cases first : machine.executeAll policy (commands.take count) with
  | error stopped =>
    rw [executeAll] at first
    rw [first] at ran
    cases ran
  | ok middle => exact ⟨middle, rfl⟩

/-- The command at this place is the first that cannot be executed. -/
def FaultsAt (policy : ReadPolicy) (commands : List Command) (machine : Machine) (place : Nat)
    (command : Command) (fault : Fault) : Prop :=
  commands[place]? = some command ∧
    ∃ middle left, machine.executeAll policy (commands.take place) = .ok middle ∧
      middle.execute policy command = .error (.fault fault, left)

/-- Commands with a sound call complete, or one of them is the first to fault. -/
theorem executeAll_cases (policy : ReadPolicy) (commands : List Command)
    (sound : machine.frame.call.isSound = true) :
    (∃ after, machine.executeAll policy commands = .ok after) ∨
      ∃ place command fault, machine.FaultsAt policy commands place command fault := by
  induction commands generalizing machine with
  | nil => exact .inl ⟨machine, rfl⟩
  | cons first commands ih =>
    cases executed : machine.execute policy first with
    | error stopped =>
      obtain ⟨stop, left⟩ := stopped
      cases stop with
      | fault fault => exact .inr ⟨0, first, fault, rfl, machine, left, rfl, executed⟩
      | unsoundCall =>
        cases execute_stops executed with
        | unsound stack unsound => cases sound.symm.trans unsound
    | ok middle =>
      have goesOn : ∀ later, machine.executeAll policy (first :: later) =
          middle.executeAll policy later := fun later => by
        rw [executeAll_cons, executed]
        rfl
      have carries := executes_carries (execute_ok_iff.mp executed)
      rcases ih (carries.sound sound) with
        ⟨after, ran⟩ | ⟨place, command, fault, here, reached, left, ran, faulted⟩
      · exact .inl ⟨after, (goesOn commands).trans ran⟩
      · exact .inr ⟨place + 1, command, fault, here, reached, left, (goesOn _).trans ran, faulted⟩

/-! ### Commands do not look at the position -/

/-- The machine with its frame at another position. -/
def placed (machine : Machine) (position : UInt64) : Machine :=
  { machine with frame := { machine.frame with position := position } }

/-- What becomes of an attempt if the frame is at another position. -/
def shifted (position : UInt64) (move : α → α) : Attempt α → Attempt α
  | .ok result => .ok (move result)
  | .error (stop, left) => .error (stop, left.placed position)

variable {position : UInt64} {along : β → β} {move : α → α}

private theorem shifted_bind {first : Attempt α} {next other : α → Attempt β}
    (alike : ∀ result, other (move result) = shifted position along (next result)) :
    (shifted position move first >>= other) = shifted position along (first >>= next) := by
  cases first with
  | error stopped => rfl
  | ok result => exact alike result

private theorem check_placed {answer : Except Fault α} {next other : α → Attempt β}
    (alike : ∀ result, other result = shifted position along (next result)) :
    ((machine.placed position).check answer >>= other) =
      shifted position along (machine.check answer >>= next) := by
  cases answer with
  | error fault => rfl
  | ok result => exact alike result

private theorem pop_placed (machine : Machine) (role : Operand → Except Fault α) :
    (machine.placed position).pop role =
      shifted position (Prod.map id (placed · position)) (machine.pop role) := by
  cases stack : machine.frame.stack with
  | nil =>
    have same : (machine.placed position).frame.stack = [] := stack
    rw [pop_nil role stack, pop_nil role same]
    rfl
  | cons top rest =>
    have same : (machine.placed position).frame.stack = top :: rest := stack
    rw [pop_cons role stack, pop_cons role same]
    cases role top <;> rfl

private theorem popRole_placed (machine : Machine) :
    (machine.placed position).popRole =
      shifted position (Prod.map id (placed · position)) machine.popRole := by
  unfold popRole popCell
  rw [pop_placed]
  apply shifted_bind
  rintro ⟨id, rest⟩
  apply check_placed
  intro store
  rfl

private theorem assign_placed (machine : Machine) (value : Value) :
    (do
      let target ← (machine.placed position).check machine.frame.peekCell
      let store ← (machine.placed position).check (machine.store.bind target value)
      return (machine.placed position).withStore store) =
      shifted position (placed · position) (do
        let target ← machine.check machine.frame.peekCell
        let store ← machine.check (machine.store.bind target value)
        return machine.withStore store) := by
  apply check_placed
  intro target
  apply check_placed
  intro store
  rfl

private theorem enqueueCall_placed (machine : Machine) (name : String) :
    (machine.placed position).enqueueCall name =
      shifted position (placed · position) (machine.enqueueCall name) := by
  have call : (machine.placed position).frame.call = machine.frame.call := rfl
  have store : (machine.placed position).store = machine.store := rfl
  simp only [enqueueCall, call, store]
  split
  · split <;> rfl
  · rfl

/-- A command does the same wherever the frame is in its body. -/
theorem execute_placed (machine : Machine) (position : UInt64) (policy : ReadPolicy)
    (command : Command) :
    (machine.placed position).execute policy command =
      shifted position (placed · position) (machine.execute policy command) := by
  cases command with
  | dupl =>
    apply check_placed
    intro top
    rfl
  | descCall => rfl
  | create => rfl
  | assign value => exact assign_placed machine value
  | assignTop =>
    apply (congrArg (· >>= _) (pop_placed machine Operand.asCell)).trans
    apply shifted_bind
    rintro ⟨source, rest⟩
    apply check_placed
    intro value
    exact assign_placed rest value
  | output =>
    apply (congrArg (· >>= _) (popRole_placed machine)).trans
    apply shifted_bind
    rintro ⟨id, rest⟩
    rfl
  | input =>
    apply (congrArg (· >>= _) (popRole_placed machine)).trans
    apply shifted_bind
    rintro ⟨id, rest⟩
    rfl
  | push word => rfl
  | pushFunc =>
    apply (congrArg (· >>= _) (pop_placed machine Operand.asName)).trans
    apply shifted_bind
    rintro ⟨name, rest⟩
    exact enqueueCall_placed rest name
  | pushParam index =>
    apply check_placed
    intro id
    rfl
  | pushReturn index =>
    apply check_placed
    intro id
    rfl

end Machine

namespace Engine

variable {primitives : Primitives σ} {engine : Engine σ} {start machine after : Machine}
  {function : Function} {command : Command} {fault : Fault} {count : Nat} {task : Task}

/-- Take a number of steps, whatever they come to: their answers, and the engine after them. -/
def stepTimes (primitives : Primitives σ) :
    Nat → Engine σ → List (Except Failure Step) × Engine σ
  | 0, engine => ([], engine)
  | count + 1, engine =>
    let (answer, next) := engine.step primitives
    let (answers, final) := stepTimes primitives count next
    (answer :: answers, final)

/-- The last of several steps is one of the engine that the others have led to. -/
theorem stepTimes_succ_last {middle final : Engine σ} {answers : List (Except Failure Step)}
    {answer : Except Failure Step} (taken : engine.stepTimes primitives count = (answers, middle))
    (last : middle.step primitives = (answer, final)) :
    engine.stepTimes primitives (count + 1) = (answers ++ [answer], final) := by
  induction count generalizing engine answers with
  | zero =>
    cases taken
    simp only [stepTimes, last, List.nil_append]
  | succ count ih =>
    cases stepped : engine.step primitives with
    | mk early next =>
      cases went : next.stepTimes primitives count with
      | mk earlier reached =>
        simp only [stepTimes, stepped, went] at taken
        cases taken
        rw [stepTimes, stepped]
        simp only [ih went, List.cons_append]

/-! ### The steps of one function -/

/-- The answers to steps that execute the first commands of a function. -/
def commandAnswers (label : String) (count : Nat) : List (Except Failure Step) :=
  (List.range count).map fun place => .ok (.command label (.ofNat place))

/-- The engine in the middle of a function, when `count` commands have led to this machine. -/
def midway (engine : Engine σ) (machine : Machine) (count : Nat) : Engine σ :=
  { engine.withMachine (machine.placed (.ofNat count)) with
    steps := engine.steps + .ofNat count }

/-- What a task that has left the queue starts from. -/
def entering (engine : Engine σ) (task : Task) (pending : List Task) : Machine :=
  ⟨.start task, engine.store, ⟨pending⟩⟩

/-- The first step of a function task is that of a function which has done nothing yet. -/
theorem step_entering {skipped later : List Task} (idle : engine.frame = none)
    (first : engine.queue.FirstReady engine.store skipped task later)
    (target : Target.resolve (primitives.provides engine.host) engine.program task.label =
      some .function) :
    engine.step primitives =
      (engine.midway (engine.entering task (skipped ++ later)) 0).step primitives := by
  have waiting : ¬ engine.queue.isEmpty = true := by
    rw [Queue.isEmpty, first.queued]
    simp
  have begun : engine.midway (engine.entering task (skipped ++ later)) 0 =
      { engine with queue := ⟨skipped ++ later⟩, frame := some (.start task) } := by
    have steps : engine.steps + .ofNat 0 = engine.steps := UInt64.add_zero _
    rw [midway, steps]
    rfl
  rw [begun]
  simp only [Engine.step, idle, schedule, if_neg waiting, Queue.select_ready_iff.mpr first,
    dispatch, target]

private theorem position_toNat {commands : List Command} {found : Option Command}
    (here : commands[count]? = found) (fits : count < UInt64.size) :
    commands[(UInt64.ofNat count).toNat]? = found := by
  rw [UInt64.toNat_ofNat_of_lt' fits]
  exact here

/-- The next command of a function that is underway completes. -/
theorem midway_command (found : engine.program.get? machine.frame.label = some function)
    (here : function.commands[count]? = some command) (fits : count < UInt64.size)
    (executed : machine.execute engine.policy command = .ok after) :
    (engine.midway machine count).step primitives =
      (.ok (.command machine.frame.label (.ofNat count)), engine.midway after (count + 1)) := by
  have rule : Machine.Executes engine.policy (machine.placed (.ofNat count)) command
      (after.placed (.ofNat count)) := by
    apply Machine.execute_ok_iff.mp
    rw [Machine.execute_placed, executed]
    rfl
  have steps : Steps primitives (engine.midway machine count) _ _ :=
    .advance rfl (.command found (position_toNat here fits) rule)
  rw [step_ok_iff.mpr steps, midway, midway, UInt64.ofNat_add, ← UInt64.add_assoc]
  rfl

/-- The next command of a function that is underway faults. -/
theorem midway_fault (found : engine.program.get? machine.frame.label = some function)
    (here : function.commands[count]? = some command) (fits : count < UInt64.size)
    {left : Machine}
    (faulted : machine.execute engine.policy command = .error (.fault fault, left)) :
    ((engine.midway machine count).step primitives).1 =
      .error (.error (.command machine.frame.label (.ofNat count) command fault)) := by
  have stopped : (machine.placed (.ofNat count)).execute engine.policy command =
      .error (.fault fault, left.placed (.ofNat count)) := by
    rw [Machine.execute_placed, faulted]
    rfl
  have fails : Fails primitives (engine.midway machine count) _ _ :=
    .advance rfl (.stop found (position_toNat here fits) stopped)
  rw [step_error_iff.mpr fails]
  rfl

/-- A function that has come to the end of its body ends. -/
theorem midway_end (found : engine.program.get? machine.frame.label = some function)
    (ended : function.commands[count]? = none) (fits : count < UInt64.size) :
    (engine.midway machine count).step primitives =
      (.ok (.finished machine.frame.label),
        { engine with
          frame := none
          store := (machine.store.release machine.frame.task.cells).collect
          queue := machine.queue
          steps := engine.steps + .ofNat (count + 1) }) := by
  have steps : Steps primitives (engine.midway machine count) _ _ :=
    .advance rfl (.finish found (position_toNat ended fits))
  rw [step_ok_iff.mpr steps, midway, UInt64.ofNat_add, ← UInt64.add_assoc]
  rfl

/-- Steps that stay within a function come to executing its commands. -/
theorem midway_run (found : engine.program.get? start.frame.label = some function)
    (within : count ≤ function.size) (short : function.size < UInt64.size)
    (ran : start.executeAll engine.policy (function.commands.take count) = .ok machine) :
    (engine.midway start 0).stepTimes primitives count =
      (commandAnswers start.frame.label count, engine.midway machine count) := by
  induction count generalizing machine with
  | zero =>
    cases ran
    rfl
  | succ count ih =>
    obtain ⟨command, here⟩ : ∃ command, function.commands[count]? = some command :=
      ⟨_, List.getElem?_eq_getElem within⟩
    rw [List.take_add_one, here, Option.toList_some, Machine.executeAll_concat_ok] at ran
    obtain ⟨middle, before, executed⟩ := ran
    have label : middle.frame.label = start.frame.label :=
      congrArg Task.label (Machine.executeAll_task before)
    have step : (engine.midway middle count).step primitives = _ :=
      midway_command (label ▸ found) here (by omega) executed
    rw [label] at step
    rw [stepTimes_succ_last (ih (by omega) before) step, commandAnswers, commandAnswers,
      List.range_succ, List.map_append]
    rfl

/-- The body of a function that completes is followed by its end. -/
theorem midway_completes (found : engine.program.get? start.frame.label = some function)
    (short : function.size < UInt64.size)
    (ran : start.executeAll engine.policy function.commands = .ok machine) :
    (engine.midway start 0).stepTimes primitives (function.size + 1) =
      (commandAnswers start.frame.label function.size ++ [.ok (.finished start.frame.label)],
        { engine with
          frame := none
          store := (machine.store.release start.frame.task.cells).collect
          queue := machine.queue
          steps := engine.steps + .ofNat (function.size + 1) }) := by
  have task : machine.frame.task = start.frame.task := Machine.executeAll_task ran
  have label : machine.frame.label = start.frame.label := congrArg Task.label task
  have ended : function.commands[function.size]? = none := List.getElem?_eq_none (Nat.le_refl _)
  have whole : start.executeAll engine.policy (function.commands.take function.size) =
      .ok machine := by rwa [Function.size, List.take_length]
  have last : (engine.midway machine function.size).step primitives = _ :=
    midway_end (label ▸ found) ended short
  rw [task, label] at last
  exact stepTimes_succ_last (midway_run found (Nat.le_refl _) short whole) last

/-- The first command that faults ends what a function can do. -/
theorem midway_breaks {place : Nat}
    (found : engine.program.get? start.frame.label = some function)
    (short : function.size < UInt64.size)
    (faults : start.FaultsAt engine.policy function.commands place command fault) :
    ((engine.midway start 0).stepTimes primitives (place + 1)).1 =
      commandAnswers start.frame.label place ++
        [.error (.error (.command start.frame.label (.ofNat place) command fault))] := by
  obtain ⟨here, middle, left, ran, faulted⟩ := faults
  have within : place < function.size := (List.getElem?_eq_some_iff.mp here).1
  have label : middle.frame.label = start.frame.label :=
    congrArg Task.label (Machine.executeAll_task ran)
  have last : ((engine.midway middle place).step primitives).1 = _ :=
    midway_fault (label ▸ found) here (Nat.lt_trans within short) faulted
  rw [label] at last
  rw [stepTimes_succ_last (midway_run found (Nat.le_of_lt within) short ran) (Prod.ext last rfl)]

/-- A function whose body completes is running until its end. -/
theorem midway_busy (found : engine.program.get? start.frame.label = some function)
    (short : function.size < UInt64.size)
    (ran : start.executeAll engine.policy function.commands = .ok machine)
    (within : count ≤ function.size) :
    ((engine.midway start 0).stepTimes primitives count).2.frame.isSome = true := by
  obtain ⟨middle, before⟩ := Machine.executeAll_take_ok ran count
  rw [midway_run found within short before]
  rfl

/-! ### The journal of a function -/

/-- The events of the last of several steps come last. -/
theorem journal_succ_last (primitives : Primitives σ) (engine : Engine σ) (count : Nat) :
    engine.journal primitives (List.replicate (count + 1) .step) =
      engine.journal primitives (List.replicate count .step) ++
        (engine.stepTimes primitives count).2.stepJournal primitives := by
  induction count generalizing engine with
  | zero => exact List.append_nil _
  | succ count ih =>
    rw [List.replicate_succ, journal, ih, ← List.append_assoc]
    rfl

/-- Steps that find a function running take no task beyond the one that the first takes. -/
theorem journal_running_first
    (busy : ∀ taken < count, (engine.stepTimes primitives (taken + 1)).2.frame.isSome = true) :
    (engine.journal primitives (List.replicate (count + 1) .step)).filterMap Event.running? =
      (engine.stepJournal primitives).filterMap Event.running? := by
  induction count with
  | zero => exact congrArg _ (List.append_nil _)
  | succ count ih =>
    obtain ⟨frame, running⟩ := Option.isSome_iff_exists.mp (busy count (Nat.lt_succ_self count))
    have untaken : (engine.stepTimes primitives (count + 1)).2.taken? .step = none := by
      simp only [taken?, running]
    rw [journal_succ_last, List.filterMap_append, stepJournal_running, untaken,
      ih fun taken before => busy taken (Nat.lt_succ_of_lt before)]
    exact List.append_nil _

/-- A step of an idle engine reports the first task that is ready. -/
theorem stepJournal_first {skipped later : List Task} (idle : engine.frame = none)
    (first : engine.queue.FirstReady engine.store skipped task later) :
    (engine.stepJournal primitives).filterMap Event.running? = [task] := by
  have here : engine.queue.get? skipped.length = some task := by
    simp [Queue.get?, first.queued]
  rw [stepJournal_running]
  simp only [taken?, idle, Queue.select_ready_iff.mpr first, Option.bind_some, here,
    Option.toList_some]

/-- A function task is run without a break, once it is the first that is ready. If its
commands complete one after the other, from a fresh frame and without the task in the
queue, then the steps answer with every command in turn and with the end of the task. They
run no other task, and they leave what the commands leave, less the references of the
task. Otherwise there is a first command that faults, and its fault is the answer after
the commands before it. -/
theorem function_task_runs_through {skipped later : List Task} (idle : engine.frame = none)
    (first : engine.queue.FirstReady engine.store skipped task later)
    (target : Target.resolve (primitives.provides engine.host) engine.program task.label =
      some .function)
    (found : engine.program.get? task.label = some function)
    (short : function.size < UInt64.size) :
    (∀ machine, (engine.entering task (skipped ++ later)).executeAll engine.policy
        function.commands = .ok machine →
      engine.stepTimes primitives (function.size + 1) =
          (commandAnswers task.label function.size ++ [.ok (.finished task.label)],
            { engine with
              frame := none
              store := (machine.store.release task.cells).collect
              queue := machine.queue
              steps := engine.steps + .ofNat (function.size + 1) }) ∧
        (engine.journal primitives (List.replicate (function.size + 1) .step)).filterMap
          Event.running? = [task]) ∧
    (∀ place command fault, (engine.entering task (skipped ++ later)).FaultsAt engine.policy
        function.commands place command fault →
      (engine.stepTimes primitives (place + 1)).1 =
        commandAnswers task.label place ++
          [.error (.error (.command task.label (.ofNat place) command fault))]) ∧
    ((∃ machine, (engine.entering task (skipped ++ later)).executeAll engine.policy
        function.commands = .ok machine) ∨
      ∃ place command fault, (engine.entering task (skipped ++ later)).FaultsAt engine.policy
        function.commands place command fault) := by
  have begins : ∀ count, engine.stepTimes primitives (count + 1) =
      (engine.midway (engine.entering task (skipped ++ later)) 0).stepTimes primitives
        (count + 1) := by
    intro count
    rw [stepTimes, stepTimes, step_entering idle first target]
  refine ⟨fun machine ran => ⟨?_, ?_⟩, fun place command fault faults => ?_, ?_⟩
  · rw [begins]
    exact midway_completes found short ran
  · rw [journal_running_first, stepJournal_first idle first]
    intro taken before
    rw [begins]
    exact midway_busy found short ran before
  · rw [begins]
    exact midway_breaks found short faults
  · exact Machine.executeAll_cases engine.policy function.commands rfl

/-- The function hands a cell without a value to another one, which waits for it for good. -/
private def idleWaitDemo : Program :=
  .ofFunctions [⟨"f", [.create, .input, .push "g", .pushFunc]⟩, ⟨"g", []⟩] (by decide)

/-- The function has run once and is enqueued again, behind the task that waits. -/
private def idleWaitEngine : Engine Unit :=
  (ofProgram idleWaitDemo ()).after (.scripted [])
    (.seed "f" :: List.replicate 5 .step ++ [.seed "f"])

/-- The second run of the function passes the task that waits and enqueues one more. -/
theorem function_task_runs_through_waiting :
    idleWaitEngine.queue.FirstReady idleWaitEngine.store [⟨some "g", [1], []⟩] (.named "f") [] ∧
      (idleWaitEngine.stepTimes (.scripted []) 5).1 =
        commandAnswers "f" 4 ++ [.ok (.finished "f")] ∧
      (idleWaitEngine.stepTimes (.scripted []) 5).2.queue.tasks =
        [⟨some "g", [1], []⟩, ⟨some "g", [2], []⟩] ∧
      (idleWaitEngine.journal (.scripted []) (List.replicate 5 .step)).filterMap
        Event.running? = [.named "f"] := by
  have first : idleWaitEngine.queue.FirstReady idleWaitEngine.store [⟨some "g", [1], []⟩]
      (.named "f") [] := ⟨rfl, List.forall_mem_singleton.mpr rfl, rfl⟩
  have target : Target.resolve (Primitives.provides (.scripted []) idleWaitEngine.host)
      idleWaitEngine.program (Task.named "f").label = some .function := rfl
  have found : idleWaitEngine.program.get? (Task.named "f").label =
      some ⟨"f", [.create, .input, .push "g", .pushFunc]⟩ := rfl
  have runs := (function_task_runs_through rfl first target found (by decide)).1
  obtain ⟨taken, events⟩ := runs _ rfl
  refine ⟨first, congrArg Prod.fst taken, ?_, events⟩
  exact congrArg (·.2.queue.tasks) taken

end Engine

end Dataflow
