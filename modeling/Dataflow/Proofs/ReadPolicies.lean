import Dataflow.Primitives.Scripted
import Dataflow.Proofs.CheckpointFidelity
import Dataflow.Proofs.CommandRules
import Dataflow.Proofs.EngineAccounts

/-! The two read policies part ways at one place only. A task is dispatched once all of its
inputs are bound, so primitives read alike under either policy, and of the commands only a
copy reads a cell. Two copies of an engine, one strict and one lenient, therefore go on in
lock step until the strict one refuses to copy from an unbound cell. -/
namespace Dataflow

/-- The cell whose reading was refused for want of a value, if that is the failure. -/
def Failure.unbound? : Failure → Option CellId
  | .error reported =>
    match reported.fault? with
    | some (.unboundRead id) => some id
    | _ => none
  | .unsoundCall => none

/-! ### Reading -/

namespace Store

variable {store : Store}

theorem read_bound {id : CellId} {cell : Cell} (held : store.get? id = some cell)
    (bound : cell.bound = true) (policy : ReadPolicy) : store.read policy id = .ok cell.value := by
  simp [read, fetch, held, bound]

/-- Policies matter for live cells without a value only. -/
theorem read_policy (store : Store) (id : CellId) :
    store.read .strict id = store.read .lenient id ∨
      ∃ cell, store.get? id = some cell ∧ cell.bound = false := by
  cases held : store.get? id with
  | none => exact .inl (by simp [read, fetch, held])
  | some cell =>
    by_cases bound : cell.bound = true
    · exact .inl (by rw [read_bound held bound, read_bound held bound])
    · exact .inr ⟨cell, rfl, Bool.eq_false_iff.mpr bound⟩

theorem readAll_policy {ids : List CellId}
    (bound : ∀ id ∈ ids, ∃ cell, store.get? id = some cell ∧ cell.bound = true)
    (policy other : ReadPolicy) : store.readAll policy ids = store.readAll other ids := by
  unfold readAll
  induction ids with
  | nil => rfl
  | cons id rest ih =>
    obtain ⟨cell, held, set⟩ := bound id List.mem_cons_self
    have later := ih fun next member => bound next (List.mem_cons_of_mem _ member)
    rw [List.mapM_cons, List.mapM_cons, read_bound held set, read_bound held set, later]

end Store

/-! ### Commands -/

namespace Machine

variable {machine : Machine} {command : Command} {source : CellId}

/-- The command copies from a live cell that has no value. -/
structure CopiesUnbound (machine : Machine) (command : Command) (source : CellId) : Prop where
  copies : command = .assignTop
  top : ∃ rest, machine.frame.stack = .cell source :: rest
  unbound : ∃ cell, machine.store.get? source = some cell ∧ cell.bound = false

private theorem assignTop_cell {rest : List Operand}
    (stack : machine.frame.stack = .cell source :: rest) (policy : ReadPolicy) :
    machine.execute policy .assignTop = (do
      let value ← (machine.withStack rest).check (machine.store.read policy source)
      let target ← (machine.withStack rest).check (machine.withStack rest).frame.peekCell
      let store ← (machine.withStack rest).check (machine.store.bind target value)
      return (machine.withStack rest).withStore store) := by
  rw [execute, popCell, pop_cons Operand.asCell stack]
  rfl

/-- Every other command does not ask for the policy. -/
theorem execute_policy (machine : Machine) (command : Command) :
    machine.execute .strict command = machine.execute .lenient command ∨
      ∃ source, machine.CopiesUnbound command source := by
  cases command with
  | assignTop =>
    cases stack : machine.frame.stack with
    | nil => exact .inl (by rw [execute, execute, popCell, pop_nil Operand.asCell stack]; rfl)
    | cons top rest =>
      cases top with
      | literal word =>
        exact .inl (by rw [execute, execute, popCell, pop_cons Operand.asCell stack]; rfl)
      | cell source =>
        rcases machine.store.read_policy source with same | unbound
        · exact .inl (by rw [assignTop_cell stack, assignTop_cell stack, same])
        · exact .inr ⟨source, rfl, ⟨rest, stack⟩, unbound⟩
  | _ => exact .inl rfl

theorem copiesUnbound_strict (copies : machine.CopiesUnbound command source) :
    ∃ left, machine.execute .strict command = .error (.fault (.unboundRead source), left) := by
  obtain ⟨rfl, ⟨rest, stack⟩, ⟨cell, held, unbound⟩⟩ := copies
  refine ⟨machine.withStack rest, ?_⟩
  rw [assignTop_cell stack]
  simp [Store.read, Store.fetch, held, unbound, check, bind, Except.bind]

private theorem peekCell_no_read (frame : Frame) (id : CellId) :
    frame.peekCell ≠ .error (.unboundRead id) := by
  unfold Frame.peekCell Frame.peek
  cases frame.stack with
  | nil => simp
  | cons top rest => cases top <;> simp [Operand.asCell]

private theorem bind_no_read (store : Store) (target id : CellId) (value : Value) :
    store.bind target value ≠ .error (.unboundRead id) := by
  unfold Store.bind Store.update
  split <;> simp

/-- The lenient copy goes on with zero, and if it fails after that, it fails for another
reason. -/
theorem copiesUnbound_lenient (copies : machine.CopiesUnbound command source) (id : CellId)
    (left : Machine) :
    machine.execute .lenient command ≠ .error (.fault (.unboundRead id), left) := by
  obtain ⟨rfl, ⟨rest, stack⟩, ⟨cell, held, unbound⟩⟩ := copies
  have zero : machine.store.read .lenient source = .ok 0 := by
    simp [Store.read, Store.fetch, held, unbound]
  rw [assignTop_cell stack, zero]
  intro failed
  cases peeked : (machine.withStack rest).frame.peekCell with
  | error fault =>
    simp only [peeked, check, bind, Except.bind] at failed
    cases failed
    exact peekCell_no_read _ id peeked
  | ok target =>
    cases bound : machine.store.bind target 0 with
    | error fault =>
      simp only [peeked, bound, check, bind, Except.bind] at failed
      cases failed
      exact bind_no_read _ target id 0 bound
    | ok store =>
      simp only [peeked, bound, check, bind, Except.bind] at failed
      cases failed

end Machine

/-! ### Steps -/

namespace Engine

variable {strict : Engine σ} {primitives : Primitives σ} {frame : Frame} {task : Task}
  {source : CellId}

section SetPolicy

variable (engine : Engine σ) (policy : ReadPolicy)

@[simp] theorem setPolicy_program : (engine.setPolicy policy).program = engine.program := rfl

@[simp] theorem setPolicy_host : (engine.setPolicy policy).host = engine.host := rfl

@[simp] theorem setPolicy_policy : (engine.setPolicy policy).policy = policy := rfl

@[simp] theorem setPolicy_store : (engine.setPolicy policy).store = engine.store := rfl

@[simp] theorem setPolicy_queue : (engine.setPolicy policy).queue = engine.queue := rfl

@[simp] theorem setPolicy_frame : (engine.setPolicy policy).frame = engine.frame := rfl

@[simp] theorem setPolicy_machine (frame : Frame) :
    (engine.setPolicy policy).machine frame = engine.machine frame := rfl

end SetPolicy

/-- The next step copies from a live cell that has no value. -/
structure CopiesUnbound (engine : Engine σ) (frame : Frame) (source : CellId) : Prop where
  running : engine.frame = some frame
  copies : ∃ function, engine.program.get? frame.label = some function ∧
    function.commands[frame.position.toNat]? = some .assignTop
  top : ∃ rest, frame.stack = .cell source :: rest
  unbound : ∃ cell, engine.store.get? source = some cell ∧ cell.bound = false

/-- The outcome of a call to a strict engine, and the same outcome for its lenient copy. -/
def Parallel (outcome relaxed : α × Engine σ) : Prop :=
  outcome.2.policy = .strict ∧ relaxed = (outcome.1, outcome.2.setPolicy .lenient)

private theorem advance_parallel (strict : Engine σ) (policy : strict.policy = .strict)
    (frame : Frame) :
    Parallel (strict.advance frame) ((strict.setPolicy .lenient).advance frame) ∨
      ∃ function command source, strict.program.get? frame.label = some function ∧
        function.commands[frame.position.toNat]? = some command ∧
        (strict.machine frame).CopiesUnbound command source := by
  unfold advance
  rw [setPolicy_program, setPolicy_machine, setPolicy_policy]
  cases strict.program.get? frame.label with
  | none => exact .inl ⟨policy, rfl⟩
  | some function =>
    dsimp only
    cases here : function.commands[frame.position.toNat]? with
    | none => exact .inl ⟨policy, rfl⟩
    | some command =>
      dsimp only
      rcases (strict.machine frame).execute_policy command with same | ⟨source, copies⟩
      · rw [policy, same]
        cases (strict.machine frame).execute .lenient command with
        | ok machine => exact .inl ⟨policy, rfl⟩
        | error stopped =>
          obtain ⟨stop, machine⟩ := stopped
          cases stop with
          | fault fault => exact .inl ⟨policy, rfl⟩
          | unsoundCall => exact .inl ⟨policy, rfl⟩
      · exact .inr ⟨function, command, source, rfl, here, copies⟩

private theorem settle_parallel (strict : Engine σ) (policy : strict.policy = .strict)
    (task : Task) (results : List Value) :
    Parallel (strict.settle task results) ((strict.setPolicy .lenient).settle task results) := by
  unfold settle
  rw [setPolicy_store]
  split
  · exact ⟨policy, rfl⟩
  · cases strict.store.bindAll (task.outputs.zip results) with
    | ok store => exact ⟨policy, rfl⟩
    | error stopped => exact ⟨policy, rfl⟩

private theorem invoke_parallel (strict : Engine σ) (policy : strict.policy = .strict)
    (ready : task.isReady strict.store = .ok true) (key : String) :
    Parallel (strict.invoke primitives key task)
      ((strict.setPolicy .lenient).invoke primitives key task) := by
  -- The inputs are bound, so no read asks for the policy.
  have same := Store.readAll_policy (Store.allBound_iff.mp ready) .lenient strict.policy
  unfold invoke
  rw [setPolicy_store, setPolicy_policy, same, setPolicy_host]
  cases strict.store.readAll strict.policy task.inputs with
  | error fault => exact ⟨policy, rfl⟩
  | ok values =>
    dsimp only
    cases primitives.invoke strict.host key values with
    | mk reply host =>
      cases reply with
      | error message => exact ⟨policy, rfl⟩
      | ok results => exact settle_parallel { strict with host := host } policy task results

private theorem dispatch_parallel (strict : Engine σ) (policy : strict.policy = .strict)
    (ready : task.isReady strict.store = .ok true) :
    Parallel (strict.dispatch primitives task)
      ((strict.setPolicy .lenient).dispatch primitives task) := by
  unfold dispatch
  rw [setPolicy_host, setPolicy_program]
  cases Target.resolve (primitives.provides strict.host) strict.program task.label with
  | none => exact ⟨policy, rfl⟩
  | some target =>
    cases target with
    | primitive key => exact invoke_parallel strict policy ready key
    | function =>
      rcases advance_parallel { strict with frame := some (.start task) } policy (.start task) with
        parallel | ⟨function, command, source, -, -, copies⟩
      · exact parallel
      · -- A function starts with an empty stack, so its first command copies nothing.
        obtain ⟨rest, stack⟩ := copies.top
        cases stack

private theorem schedule_parallel (strict : Engine σ) (policy : strict.policy = .strict) :
    Parallel (strict.schedule primitives) ((strict.setPolicy .lenient).schedule primitives) := by
  unfold schedule
  rw [setPolicy_queue, setPolicy_store]
  split
  · exact ⟨policy, rfl⟩
  · cases chosen : strict.queue.select strict.store with
    | stalled skipped => exact ⟨policy, rfl⟩
    | undecided skipped task fault => exact ⟨policy, rfl⟩
    | ready skipped task later =>
      obtain ⟨-, ready⟩ := Selection.ready_eq chosen
      exact dispatch_parallel { strict with queue := ⟨skipped ++ later⟩ } policy ready

/-- A step of two copies has one outcome, unless it copies from an unbound cell. -/
theorem step_parallel (strict : Engine σ) (policy : strict.policy = .strict) :
    Parallel (strict.step primitives) ((strict.setPolicy .lenient).step primitives) ∨
      ∃ frame source, strict.CopiesUnbound frame source := by
  unfold step
  rw [setPolicy_frame]
  cases running : strict.frame with
  | none => exact .inl (schedule_parallel strict policy)
  | some frame =>
    rcases advance_parallel strict policy frame with
      parallel | ⟨function, command, source, found, here, copies⟩
    · exact .inl parallel
    · obtain ⟨rfl, top, unbound⟩ := copies
      exact .inr ⟨frame, source, running, ⟨function, found, here⟩, top, unbound⟩

/-- At such a step the strict copy is refused, and the lenient copy answers otherwise. -/
theorem copiesUnbound_step (primitives : Primitives σ) (policy : strict.policy = .strict)
    (copies : strict.CopiesUnbound frame source) :
    (strict.step primitives).1 =
        .error (.error (.command frame.label frame.position .assignTop (.unboundRead source))) ∧
      ((strict.setPolicy .lenient).step primitives).1 ≠ (strict.step primitives).1 := by
  obtain ⟨running, ⟨function, found, here⟩, top, unbound⟩ := copies
  have tries : (strict.machine frame).CopiesUnbound .assignTop source := ⟨rfl, top, unbound⟩
  obtain ⟨left, refused⟩ := Machine.copiesUnbound_strict tries
  have answer : (strict.step primitives).1 =
      .error (.error (.command frame.label frame.position .assignTop (.unboundRead source))) := by
    simp only [step, running, advance, found, here, policy, refused, fail]
  refine ⟨answer, ?_⟩
  rw [answer, step, setPolicy_frame, running]
  simp only [advance, setPolicy_program, setPolicy_machine, setPolicy_policy, found, here]
  cases executed : (strict.machine frame).execute .lenient .assignTop with
  | ok machine =>
    intro same
    cases same
  | error stopped =>
    obtain ⟨stop, machine⟩ := stopped
    intro same
    cases stop with
    | unsoundCall => cases same
    | fault fault =>
      cases same
      exact Machine.copiesUnbound_lenient tries source machine executed

/-! ### Histories -/

private theorem serve_parallel (primitives : Primitives σ) (strict : Engine σ)
    (policy : strict.policy = .strict) {request : Request}
    (plain : ∀ policy, request ≠ .setPolicy policy) :
    Parallel (strict.serve primitives request)
        ((strict.setPolicy .lenient).serve primitives request) ∨
      request = .step ∧ ∃ frame source, strict.CopiesUnbound frame source := by
  cases request with
  | seed name => exact .inl ⟨policy, rfl⟩
  | setPolicy policy => exact absurd rfl (plain policy)
  | step =>
    rcases strict.step_parallel policy with ⟨kept, same⟩ | copies
    · refine .inl ⟨kept, ?_⟩
      rw [serve, same]
      rfl
    · exact .inr ⟨rfl, copies⟩

theorem record_append (primitives : Primitives σ) (engine : Engine σ)
    (requests later : List Request) :
    engine.record primitives (requests ++ later) =
      engine.record primitives requests ++
        (engine.after primitives requests).record primitives later := by
  induction requests generalizing engine with
  | nil => rfl
  | cons request rest ih => exact congrArg (_ :: ·) (ih _)

/-- An entry of a record, with the policy of the state in it made lenient. -/
def relax (entry : Option (Except Failure Step) × Snapshot) :
    Option (Except Failure Step) × Snapshot :=
  (entry.1, { entry.2 with policy := .lenient })

/-- The records of a strict engine and of its lenient copy tell the same, and
the engines are copies of each other at the end. -/
structure LockStep (primitives : Primitives σ) (strict : Engine σ) (requests : List Request) :
    Prop where
  records : (strict.setPolicy .lenient).record primitives requests =
    (strict.record primitives requests).map relax
  copies : (strict.setPolicy .lenient).after primitives requests =
    (strict.after primitives requests).setPolicy .lenient
  policy : (strict.after primitives requests).policy = .strict

theorem lockStep_cons {request : Request} {requests : List Request}
    (parallel : Parallel (strict.serve primitives request)
      ((strict.setPolicy .lenient).serve primitives request))
    (steps : LockStep primitives (strict.serve primitives request).2 requests) :
    LockStep primitives strict (request :: requests) := by
  obtain ⟨-, same⟩ := parallel
  refine ⟨?_, ?_, steps.policy⟩
  · rw [record, record, same]
    exact congrArg (_ :: ·) steps.records
  · rw [after, same]
    exact steps.copies

/-- Two copies go in lock step to the end, or up to a step that copies from an
unbound cell. -/
theorem lockStep_until (primitives : Primitives σ) (strict : Engine σ)
    (policy : strict.policy = .strict) {requests : List Request}
    (plain : ∀ policy, .setPolicy policy ∉ requests) :
    LockStep primitives strict requests ∨
      ∃ before later, requests = before ++ .step :: later ∧ LockStep primitives strict before ∧
        ∃ frame source, (strict.after primitives before).CopiesUnbound frame source := by
  induction requests generalizing strict with
  | nil => exact .inl ⟨rfl, rfl, policy⟩
  | cons request rest ih =>
    have other : ∀ policy, request ≠ .setPolicy policy := fun policy same =>
      plain policy (same ▸ List.mem_cons_self)
    rcases serve_parallel primitives strict policy other with parallel | ⟨rfl, copies⟩
    · rcases ih _ parallel.1 fun policy member => plain policy (List.mem_cons_of_mem _ member) with
        steps | ⟨before, later, rfl, steps, copies⟩
      · exact .inl (lockStep_cons parallel steps)
      · exact .inr ⟨request :: before, later, rfl, lockStep_cons parallel steps, copies⟩
    · exact .inr ⟨[], rest, rfl, ⟨rfl, rfl, policy⟩, copies⟩

/-- A copy from an unbound cell ends the lock step: the strict engine reports it. -/
theorem LockStep.parts {before : List Request} (steps : LockStep primitives strict before)
    (copies : (strict.after primitives before).CopiesUnbound frame source) (later : List Request) :
    some (.error (.error (.command frame.label frame.position .assignTop (.unboundRead source)))) ∈
        (strict.record primitives (before ++ .step :: later)).map (·.1) ∧
      (strict.setPolicy .lenient).record primitives (before ++ .step :: later) ≠
        (strict.record primitives (before ++ .step :: later)).map relax := by
  obtain ⟨refused, otherwise⟩ := copiesUnbound_step primitives steps.policy copies
  rw [record_append, record_append, steps.records, steps.copies]
  refine ⟨?_, fun same => ?_⟩
  · rw [List.map_append]
    exact List.mem_append_right _ (refused ▸ List.mem_cons_self)
  · rw [List.map_append] at same
    have answers := congrArg Prod.fst (List.cons.inj (List.append_cancel_left same)).1
    exact otherwise (Option.some.inj answers)

/-- The first request on which two copies differ is a step that copies from an
unbound cell. -/
theorem parts_iff (primitives : Primitives σ) (strict : Engine σ)
    (policy : strict.policy = .strict) {before : List Request} {request : Request}
    (plain : ∀ policy, .setPolicy policy ∉ before ++ [request])
    (alike : (strict.setPolicy .lenient).record primitives before =
      (strict.record primitives before).map relax) :
    (strict.setPolicy .lenient).record primitives (before ++ [request]) ≠
        (strict.record primitives (before ++ [request])).map relax ↔
      request = .step ∧ ∃ frame source,
        (strict.after primitives before).CopiesUnbound frame source ∧
        ((strict.after primitives before).step primitives).1 = .error (.error
          (.command frame.label frame.position .assignTop (.unboundRead source))) := by
  constructor
  · intro differ
    rcases lockStep_until primitives strict policy plain with
      steps | ⟨first, rest, split, steps, frame, source, copies⟩
    · exact absurd steps.records differ
    · -- had they parted before the last request, the records would differ already
      rcases List.eq_nil_or_concat rest with rfl | ⟨rest, last, rfl⟩
      · obtain ⟨rfl, stepped⟩ := List.append_inj' split rfl
        cases stepped
        exact ⟨rfl, frame, source, copies, (copiesUnbound_step primitives steps.policy copies).1⟩
      · rw [List.concat_eq_append, ← List.cons_append, ← List.append_assoc] at split
        obtain ⟨rfl, -⟩ := List.append_inj' split rfl
        exact absurd alike (steps.parts copies rest).2
  · rintro ⟨rfl, frame, source, copies, -⟩
    rcases lockStep_until primitives strict policy
        (fun policy member => plain policy (List.mem_append_left _ member)) with
      steps | ⟨first, rest, rfl, steps, frame, source, earlier⟩
    · exact (steps.parts copies []).2
    · exact absurd alike (steps.parts earlier rest).2

/-- Of two copies of an engine, one strict and one lenient, both give the same
answers and reach the same states for as long as the strict one does not report
a read of an unbound cell. The first call on which they differ is a step at
which the strict copy does report one, for a copying command whose source is a
live cell without a value; and at every such step they do differ. -/
theorem strict_refines_lenient (primitives : Primitives σ) (engine : Engine σ)
    (requests : List Request) (plain : ∀ policy, .setPolicy policy ∉ requests) :
    let strict := engine.setPolicy .strict
    let lenient := engine.setPolicy .lenient
    ((∀ failure, some (.error failure) ∈ (strict.record primitives requests).map (·.1) →
        failure.unbound? = none) →
      lenient.record primitives requests = (strict.record primitives requests).map relax ∧
      lenient.after primitives requests =
        (strict.after primitives requests).setPolicy .lenient) ∧
    ∀ before request later, requests = before ++ request :: later →
      lenient.record primitives before = (strict.record primitives before).map relax →
      (lenient.record primitives (before ++ [request]) ≠
          (strict.record primitives (before ++ [request])).map relax ↔
        let now := strict.after primitives before
        request = .step ∧ ∃ frame source, now.CopiesUnbound frame source ∧
          (now.step primitives).1 = .error (.error
            (.command frame.label frame.position .assignTop (.unboundRead source)))) := by
  intro strict lenient
  constructor
  · intro silent
    rcases lockStep_until primitives strict rfl plain with
      steps | ⟨before, later, rfl, steps, frame, source, copies⟩
    · exact ⟨steps.records, steps.copies⟩
    · have reported := silent _ (steps.parts copies later).1
      cases reported
  · intro before request later parts alike
    refine parts_iff primitives strict rfl (fun policy member => plain policy ?_) alike
    rw [parts, List.append_cons]
    exact List.mem_append_left _ member

/-- The function copies a cell that it has just created into another. -/
private def copyDemo : Program :=
  .ofFunctions [⟨"f", [.create, .create, .assignTop]⟩] (by decide)

/-- The copies are made within the function, and part at its third command. -/
theorem strict_refines_lenient_parting :
    let primitives := Primitives.scripted []
    let engine := (ofProgram copyDemo ()).after primitives [.seed "f", .step]
    let strict := engine.setPolicy .strict
    let lenient := engine.setPolicy .lenient
    (strict.record primitives [.step, .step]).map (·.1) = [some (.ok (.command "f" 1)),
        some (.error (.error (.command "f" 2 .assignTop (.unboundRead 2))))] ∧
      (lenient.record primitives [.step, .step]).map (·.1) =
        [some (.ok (.command "f" 1)), some (.ok (.command "f" 2))] ∧
      lenient.record primitives [.step] = (strict.record primitives [.step]).map relax ∧
      ∃ frame source, (strict.after primitives [.step]).CopiesUnbound frame source := by
  let primitives := Primitives.scripted []
  let engine := (ofProgram copyDemo ()).after primitives [.seed "f", .step]
  have once : ((engine.setPolicy .strict).record primitives [.step]).map (·.1) =
      [some (.ok (.command "f" 1))] := rfl
  have strictly : ((engine.setPolicy .strict).record primitives [.step, .step]).map (·.1) =
      [some (.ok (.command "f" 1)),
        some (.error (.error (.command "f" 2 .assignTop (.unboundRead 2))))] := rfl
  have leniently : ((engine.setPolicy .lenient).record primitives [.step, .step]).map (·.1) =
      [some (.ok (.command "f" 1)), some (.ok (.command "f" 2))] := rfl
  have alike := ((strict_refines_lenient primitives engine [.step] (by simp)).1 (by simp [once])).1
  have differ : (engine.setPolicy .lenient).record primitives [.step, .step] ≠
      ((engine.setPolicy .strict).record primitives [.step, .step]).map relax := by
    intro same
    have answers := congrArg (List.map (·.1)) same
    rw [leniently, List.map_map, show (fun entry => Prod.fst entry) ∘ relax = (·.1) from rfl,
      strictly] at answers
    cases answers
  obtain ⟨-, frame, source, copies, -⟩ := ((strict_refines_lenient primitives engine
    [.step, .step] (by simp)).2 [.step] .step [] rfl alike).mp differ
  exact ⟨strictly, leniently, alike, frame, source, copies⟩

end Engine

end Dataflow
