import Dataflow.Primitives.Scripted
import Dataflow.Proofs.IdleStore
import Dataflow.Proofs.StepEffects

/-! What a run leaves behind. A run that ends leaves exactly the cells that some
function listed in a call and gave up, by starting another call or by ending, before
it enqueued the call. Whether there are any can be read off the events of the run:
after each command that adds a cell to a call, the call has to be enqueued before it
is given up. -/
namespace Dataflow

theorem Store.size_eq_zero_iff {store : Store} :
    store.size = 0 ↔ ∀ id, store.contains id = false := by
  constructor
  · intro empty id
    have nothing : store.cells.entries = [] := List.length_eq_zero_iff.mp empty
    simp [contains, CellMap.contains, CellMap.get?, nothing]
  · intro dead
    refine List.length_eq_zero_iff.mpr (List.eq_nil_iff_forall_not_mem.mpr fun entry member => ?_)
    have held := (CellMap.mem_entries_iff store.cells entry.1 entry.2).mp member
    have live : store.contains entry.1 = true := contains_of_get? held
    simp [dead] at live

/-! ### Calls in a journal -/

namespace Event

/-- A command adds a cell to the call. -/
def joinsCall : Event → Bool
  | .exec _ _ .input => true
  | .exec _ _ .output => true
  | _ => false

/-- A copy of the call is enqueued. -/
def issuesCall : Event → Bool
  | .enqueue _ => true
  | _ => false

/-- The call is given up, for a new one or because the task is over. -/
def endsCall : Event → Bool
  | .exec _ _ .descCall => true
  | .finished _ _ => true
  | _ => false

/-- The present call is enqueued before it is given up. -/
def issued : List Event → Bool
  | [] => false
  | event :: later => event.issuesCall || !event.endsCall && issued later

/-- Every cell that joins a call is in it when the call is enqueued. -/
def allIssued : List Event → Bool
  | [] => true
  | event :: later => (!event.joinsCall || issued later) && allIssued later

/-- All cells that join a call from now on are enqueued with it, and so are those in
`waiting`, which have joined the present call already. -/
def Settles (waiting : List CellId) (journal : List Event) : Prop :=
  allIssued journal = true ∧ (waiting ≠ [] → issued journal = true)

variable {waiting : List CellId} {later : List Event}

/-- Events that have nothing to do with the call. -/
theorem settles_append (events : List Event)
    (apart : ∀ event ∈ events,
      event.joinsCall = false ∧ event.issuesCall = false ∧ event.endsCall = false) :
    Settles waiting (events ++ later) ↔ Settles waiting later := by
  induction events with
  | nil => rfl
  | cons event rest ih =>
    obtain ⟨joins, issues, ends⟩ := apart event List.mem_cons_self
    rw [← ih fun other member => apart other (List.mem_cons_of_mem _ member)]
    simp [Settles, allIssued, issued, joins, issues, ends]

theorem settles_finished (task : Task) (collected : Nat) :
    Settles waiting (.finished task collected :: later) ↔ waiting = [] ∧ Settles [] later := by
  simp only [Settles, allIssued, issued, joinsCall, issuesCall, endsCall]
  by_cases nothing : waiting = [] <;> simp [nothing]

end Event

/-! ### Commands -/

namespace Machine

variable {machine after : Machine} {policy : ReadPolicy} {command : Command} {calls : Nat}
  {dropped : List CellId} {later : List Event}

private theorem settles_apart {label : String} {position : UInt64}
    (joins : (Event.exec label position command).joinsCall = false)
    (ends : (Event.exec label position command).endsCall = false)
    (quiet : machine.journal policy command = []) (spares : machine.frame.commandDrops command = [])
    (same : after.frame.call = machine.frame.call) :
    Event.Settles machine.frame.call.unshared
        (.exec label position command :: machine.journal policy command ++ later) ↔
      machine.frame.commandDrops command = [] ∧ Event.Settles after.frame.call.unshared later := by
  rw [quiet, spares, same, Event.settles_append [.exec label position command]]
  · simp
  · intro event member
    cases List.mem_singleton.mp member
    exact ⟨joins, rfl, ends⟩

private theorem settles_join {label : String} {position : UInt64} {id : CellId}
    (joins : (Event.exec label position command).joinsCall = true)
    (ends : (Event.exec label position command).endsCall = false)
    (quiet : machine.journal policy command = []) (spares : machine.frame.commandDrops command = [])
    (grown : after.frame.call.unshared.Perm (id :: machine.frame.call.unshared)) :
    Event.Settles machine.frame.call.unshared
        (.exec label position command :: machine.journal policy command ++ later) ↔
      machine.frame.commandDrops command = [] ∧ Event.Settles after.frame.call.unshared later := by
  have waits : after.frame.call.unshared ≠ [] := by
    intro nothing
    simp [nothing] at grown
  rw [quiet, spares]
  simp only [Event.Settles, List.cons_append, List.nil_append, Event.allIssued, Event.issued, joins,
    ends, Event.issuesCall]
  by_cases before : machine.frame.call.unshared = [] <;> simp [before, waits, and_comm]

/-- A command that completes drops nothing and keeps the account of what has to be
enqueued, or drops what was waiting. -/
theorem executes_settles (kept : machine.Kept calls dropped) (few : calls < UInt32.size)
    (rule : Executes policy machine command after) (label : String) (position : UInt64) :
    Event.Settles machine.frame.call.unshared
        (.exec label position command :: machine.journal policy command ++ later) ↔
      machine.frame.commandDrops command = [] ∧ Event.Settles after.frame.call.unshared later := by
  have held := kept.held machine.frame rfl
  have executed := execute_ok_iff.mpr rule
  cases rule with
  | dupl stack => exact settles_apart rfl rfl rfl rfl rfl
  | descCall =>
    simp only [journal, Frame.commandDrops, List.cons_append, List.nil_append, Event.Settles,
      Event.allIssued, Event.issued, Event.joinsCall, Event.issuesCall, Event.endsCall]
    by_cases waits : machine.frame.call.unshared = [] <;>
      simp [waits, withCall, show Call.empty.unshared = [] from rfl]
  | create => exact settles_apart rfl rfl rfl rfl rfl
  | assign stack bound => exact settles_apart rfl rfl rfl rfl rfl
  | assignTop stack read bound => exact settles_apart rfl rfl rfl rfl rfl
  | output stack raised =>
    exact settles_join rfl rfl rfl rfl (Call.unshared_addOutput held.sound _)
  | input stack raised =>
    exact settles_join rfl rfl rfl rfl (Call.unshared_addInput held.sound _)
  | push word => exact settles_apart rfl rfl rfl rfl rfl
  | @pushFunc name rest store stack sound raised =>
    have room := word_room few
    have short := held.short
    obtain ⟨-, handed⟩ := Call.issued_shares_all name
      (show machine.frame.call.task.cells.length < UInt64.size by omega)
    simp [journal, executed, Frame.commandDrops, Event.Settles, Event.allIssued, Event.issued,
      Event.joinsCall, Event.issuesCall, Event.endsCall, withStore, withCall, handed]
  | pushParam found => exact settles_apart rfl rfl rfl rfl rfl
  | pushReturn found => exact settles_apart rfl rfl rfl rfl rfl

end Machine

/-! ### Steps -/

/-- The cells in the call of the frame that is running, if there is one, that no
enqueued copy refers to. -/
def unsharedOf : Option Frame → List CellId
  | some frame => frame.call.unshared
  | none => []

namespace Engine

variable {engine : Engine σ} {primitives : Primitives σ} {calls : Nat} {dropped : List CellId}
  {frame : Frame} {task : Task} {step : Step} {later : List Event}

/-- The events of all steps of a history, in order. -/
def journal (primitives : Primitives σ) : Engine σ → List Request → List Event
  | _, [] => []
  | engine, .step :: rest =>
    engine.stepJournal primitives ++ (engine.serve primitives .step).2.journal primitives rest
  | engine, request :: rest => (engine.serve primitives request).2.journal primitives rest

/-- No step of a history fails. -/
def Faultless (primitives : Primitives σ) : Engine σ → List Request → Prop
  | _, [] => True
  | engine, request :: rest =>
    (engine.serve primitives request).1.all Except.isOk = true ∧
      (engine.serve primitives request).2.Faultless primitives rest

/-- The cells that the running function gives up in the next step, because it starts
a new call or ends: those of its call that are not enqueued. -/
def stepAbandons (engine : Engine σ) : List CellId :=
  match engine.frame with
  | some frame => engine.advanceDrops frame
  | none => []

/-- The cells that functions gave up in the course of a history. -/
def abandoned (primitives : Primitives σ) : Engine σ → List Request → List CellId
  | _, [] => []
  | engine, .step :: rest =>
    engine.stepAbandons ++ (engine.serve primitives .step).2.abandoned primitives rest
  | engine, request :: rest => (engine.serve primitives request).2.abandoned primitives rest

private theorem retire_settles {waiting : List CellId} (store : Store) (task : Task) :
    Event.Settles waiting (retireJournal store task ++ later) ↔
      waiting = [] ∧ Event.Settles [] later := by
  rw [retireJournal, List.append_assoc, Event.settles_append]
  · exact Event.settles_finished task _
  · intro event member
    rcases List.mem_append.mp member with released | swept
    · obtain ⟨id, rfl | rfl⟩ := mem_releaseJournal released <;> exact ⟨rfl, rfl, rfl⟩
    · obtain ⟨id, -, rfl⟩ := List.mem_map.mp swept
      exact ⟨rfl, rfl, rfl⟩

private theorem advances_settles (engine : Engine σ) {after : Engine σ}
    (running : engine.frame = some frame) (kept : engine.Kept calls dropped)
    (few : calls < UInt32.size) (advances : Advances engine frame step after) :
    Event.Settles frame.call.unshared (engine.advanceJournal frame ++ later) ↔
      engine.advanceDrops frame = [] ∧ Event.Settles (unsharedOf after.frame) later := by
  have books := machine_kept running kept
  cases advances with
  | finish found ended =>
    simp only [advanceJournal, advanceDrops, found, ended]
    exact retire_settles engine.store frame.task
  | command found here rule =>
    simp only [advanceJournal, advanceDrops, found, here]
    exact Machine.executes_settles books few rule _ _

private theorem dispatches_settles {after : Engine σ} (idle : engine.frame = none)
    (inHand : Accounts calls (dropped ++ task.cells) engine.store engine.queue none)
    (few : calls < UInt32.size) (dispatches : Dispatches primitives engine task step after) :
    Event.Settles [] (engine.dispatchJournal primitives task ++ later) ↔
      engine.dispatchDrops primitives task = [] ∧
        Event.Settles (unsharedOf after.frame) later := by
  have answer := dispatch_ok_iff.mpr dispatches
  cases dispatches with
  | @primitive key values results host store target read replied enough bound =>
    have invoked : (engine.invoke primitives key task).1 = .ok (.primitive task.label) := by
      simp only [dispatch, target] at answer
      rw [answer]
    have journal : engine.dispatchJournal primitives task =
        [.running task, .returned key values results] ++ retireJournal store task := by
      simp [dispatchJournal, target, invokeJournal, read, replied, Nat.not_lt.mpr enough, bound]
    rw [journal, List.append_assoc, Event.settles_append _ (by simp [Event.joinsCall,
      Event.issuesCall, Event.endsCall]), retire_settles]
    simp [dispatchDrops, target, invoked, Task.forfeit, idle, unsharedOf]
  | function target advances =>
    simp only [dispatchJournal, dispatchDrops, target]
    refine Iff.trans (Event.settles_append [.running task] ?_) (advances_settles
      { engine with frame := some (.start task) } rfl (accounts_start inHand) few advances)
    simp [Event.joinsCall, Event.issuesCall, Event.endsCall]

/-- A step drops nothing and keeps the account of what has to be enqueued, or drops
what was waiting. -/
theorem steps_settle {after : Engine σ} (kept : engine.Kept calls dropped)
    (few : calls < UInt32.size) (steps : Steps primitives engine step after) :
    Event.Settles (unsharedOf engine.frame) (engine.stepJournal primitives ++ later) ↔
      engine.stepDrops primitives = [] ∧ Event.Settles (unsharedOf after.frame) later := by
  have skips : ∀ (waiting : List CellId) (skipped : List Task) (rest : List Event),
      Event.Settles waiting (skipped.map .skip ++ rest) ↔ Event.Settles waiting rest := by
    intro waiting skipped rest
    refine Event.settles_append _ fun event member => ?_
    obtain ⟨task, -, rfl⟩ := List.mem_map.mp member
    exact ⟨rfl, rfl, rfl⟩
  cases steps with
  | advance running advances =>
    simp only [stepJournal, stepDrops, running]
    exact advances_settles engine running kept few advances
  | dispatch idle chosen dispatches =>
    obtain ⟨inHand, -⟩ := take_ready idle kept chosen
    simp only [stepJournal, stepDrops, idle, scheduleJournal, scheduleDrops, chosen,
      Selection.skipped, List.append_assoc]
    rw [skips]
    rw [idle] at dispatches
    exact dispatches_settles rfl inHand few dispatches
  | halt idle nothing =>
    simp only [stepJournal, stepDrops, idle, scheduleJournal, scheduleDrops, nothing,
      Selection.skipped, List.append_nil, true_and]
    exact skips _ _ _

private theorem steps_drop {after : Engine σ} (steps : Steps primitives engine step after) :
    engine.stepDrops primitives = engine.stepAbandons := by
  cases steps with
  | advance running advances => simp [stepDrops, stepAbandons, running]
  | halt idle nothing => simp [stepDrops, stepAbandons, idle, scheduleDrops, nothing]
  | @dispatch skipped later task _ _ idle chosen dispatches =>
    have answer := dispatch_ok_iff.mpr dispatches
    simp only [stepDrops, stepAbandons, idle, scheduleDrops, chosen, dispatchDrops]
    cases dispatches with
    | @primitive key values results host store target read replied enough bound =>
      simp only [dispatch, target] at answer
      simp only [idle] at answer target
      simp [target, answer, Task.forfeit]
    | function target advances =>
      -- The call of a function that starts is empty.
      have unlisted : (Frame.start task).call.unshared = [] := rfl
      simp only [target, advanceDrops]
      split
      · rfl
      · split
        · exact unlisted
        · unfold Frame.commandDrops
          split
          · exact unlisted
          · rfl

/-! ### Histories -/

/-- The answer to a step that does not fail. -/
theorem faultless_step {rest : List Request}
    (faultless : engine.Faultless primitives (.step :: rest)) :
    ∃ step after, engine.step primitives = (.ok step, after) ∧
      after.Faultless primitives rest := by
  obtain ⟨fine, later⟩ := faultless
  cases stepped : engine.step primitives with
  | mk answer after =>
    simp only [serve, stepped] at fine later
    cases answer with
    | error failure => cases fine
    | ok step => exact ⟨step, after, rfl, later⟩

/-- A history without failures that ends idle drops nothing exactly if every cell that
joins a call is enqueued with it. -/
theorem dropped_nil_iff (kept : engine.Kept calls dropped) (requests : List Request)
    (few : calls + requests.count .step ≤ UInt32.size)
    (faultless : engine.Faultless primitives requests)
    (idle : (engine.after primitives requests).frame = none) :
    engine.dropped primitives requests = [] ↔
      Event.Settles (unsharedOf engine.frame) (engine.journal primitives requests) := by
  induction requests generalizing engine calls dropped with
  | nil =>
    rw [show engine.frame = none from idle]
    simp [Engine.dropped, journal, Event.Settles, Event.allIssued, unsharedOf]
  | cons request rest ih =>
    cases request with
    | seed name => exact ih (seed_kept name kept) (by simpa using few) faultless.2 idle
    | setPolicy policy =>
      have same : (engine.setPolicy policy).Kept calls dropped := kept
      exact ih same (by simpa using few) faultless.2 idle
    | step =>
      rw [List.count_cons_self] at few
      obtain ⟨step, after, stepped, later⟩ := faultless_step faultless
      have books : (engine.step primitives).2.Kept _ _ := (step_sound kept (by omega)).1
      simp only [Engine.after, serve, stepped] at idle books
      simp only [Engine.dropped, journal, serve, stepped, List.append_eq_nil_iff]
      rw [steps_settle kept (by omega) (step_ok_iff.mp stepped), ih books (by omega) later idle]

/-- Without failures, what is dropped is what functions gave up. -/
theorem dropped_eq_abandoned (requests : List Request)
    (faultless : engine.Faultless primitives requests) :
    engine.dropped primitives requests = engine.abandoned primitives requests := by
  induction requests generalizing engine with
  | nil => rfl
  | cons request rest ih =>
    cases request with
    | seed name => exact ih faultless.2
    | setPolicy policy => exact ih faultless.2
    | step =>
      obtain ⟨step, after, stepped, later⟩ := faultless_step faultless
      simp only [Engine.dropped, abandoned, serve, stepped]
      rw [steps_drop (step_ok_iff.mp stepped), ih later]

/-! ### Cells that are swept -/

private theorem retire_swept {store : Store} {id : CellId}
    (told : .garbage id ∈ retireJournal store task) :
    (store.release task.cells).collect.contains id = false := by
  rcases mem_retireJournal told with ⟨other, same | same⟩ | ⟨other, swept, same⟩ | same
  · cases same
  · cases same
  · cases same
    obtain ⟨⟨key, cell⟩, entry, rfl⟩ := List.mem_map.mp swept
    have held := (CellMap.mem_entries_iff _ _ _).mp entry
    rw [CellMap.get?_filter, Option.filter_eq_some_iff] at held
    have zero : cell.refs = 0 := by simpa using held.2
    refine Bool.eq_false_iff.mpr fun live => ?_
    obtain ⟨still, now⟩ := Store.contains_iff.mp live
    rw [Store.get?_collect, Option.filter_eq_some_iff] at now
    cases (show some still = some cell from now.1.symm.trans held.1)
    simp [zero] at now
  · cases same

private theorem advance_swept (engine : Engine σ) (frame : Frame) {id : CellId}
    (told : .garbage id ∈ engine.advanceJournal frame) :
    (engine.advance frame).2.store.contains id = false := by
  unfold advanceJournal at told
  split at told
  · cases told
  · rename_i function found
    split at told
    · rename_i ended
      simp only [advance, found, ended]
      exact retire_swept told
    · unfold Machine.journal at told
      split at told
      · split at told <;> simp at told
      · simp at told

private theorem invoke_swept {key : String} {id : CellId}
    (told : .garbage id ∈ engine.invokeJournal primitives key task) :
    (engine.invoke primitives key task).2.store.contains id = false := by
  unfold invokeJournal at told
  split at told
  · cases told
  · rename_i values read
    split at told
    · cases told
    · rename_i results host reply
      split at told
      · cases told
      · rename_i enough
        rcases List.mem_cons.mp told with here | later
        · cases here
        · split at later
          · cases later
          · rename_i store bound
            simp only [invoke, read, reply, settle, enough, if_false, bound]
            exact retire_swept later

/-- A cell that a step reports as garbage is not live after it. -/
theorem garbage_swept {id : CellId} (told : .garbage id ∈ engine.stepJournal primitives) :
    (engine.step primitives).2.store.contains id = false := by
  unfold stepJournal at told
  split at told
  · rename_i frame running
    simp only [Engine.step, running]
    exact advance_swept engine frame told
  · rename_i idle
    unfold scheduleJournal at told
    rcases List.mem_append.mp told with skip | run
    · simp at skip
    · split at run
      · rename_i skipped task later chosen
        have waiting : ¬ engine.queue.isEmpty = true := by
          rw [Queue.isEmpty, (Selection.ready_eq chosen).1]
          simp
        simp only [Engine.step, idle, schedule, if_neg waiting, chosen]
        rcases List.mem_cons.mp run with here | rest
        · cases here
        · split at rest
          · cases rest
          · rename_i key target
            simp only [dispatch, target]
            exact invoke_swept rest
          · rename_i target
            simp only [dispatch, target]
            exact advance_swept _ _ rest
      · cases run

/-! ### The report -/

/-- What a run leaves behind. If no step failed and nothing is pending, the live cells
are those that functions gave up with a call they had not enqueued. So there is none
exactly if every cell that joined a call was enqueued with it. A cell that was dropped
in whatever way stays live and is not swept by any later step. And while an engine is
idle, after failures or not, every live cell is referenced. -/
theorem leak_report_exact (primitives : Primitives σ) (program : Program) (host : σ)
    (requests : List Request) (few : requests.count .step < UInt32.size) :
    let start := ofProgram program host
    let engine := start.after primitives requests
    let dropped := start.dropped primitives requests
    (start.Faultless primitives requests → (engine.step primitives).1 = .ok .done →
      dropped = start.abandoned primitives requests ∧
      (∀ id, engine.store.contains id = true ↔ id ∈ dropped) ∧
      (engine.store.size = 0 ↔ Event.allIssued (start.journal primitives requests) = true)) ∧
    (∀ later, requests.count .step + later.count .step < UInt32.size → ∀ id ∈ dropped,
      let final := engine.after primitives later
      final.store.contains id = true ∧ .garbage id ∉ final.stepJournal primitives) ∧
    (engine.frame = none → ∀ id cell, engine.store.get? id = some cell → 0 < cell.refs.toNat) := by
  intro start engine dropped
  have kept : engine.Kept (requests.count .step) dropped :=
    history_kept primitives program host requests (Nat.le_of_lt few)
  have tidy : engine.Tidy := history_tidy primitives program host requests (Nat.le_of_lt few)
  refine ⟨fun faultless answer => ?_, fun later within id lost => ?_, fun idle id cell held => ?_⟩
  · obtain ⟨idle, -, done, -⟩ := halted_step answer rfl
    have empty : engine.queue.roles = [] := by
      split at done
      · rename_i empty
        rw [Queue.roles, List.isEmpty_iff.mp empty]
        rfl
      · cases done
    have live : ∀ id, engine.store.contains id = true ↔ id ∈ dropped := fun id => by
      simpa [empty] using idle_live_iff kept tidy idle id
    have issued := dropped_nil_iff (new_kept program host) requests (by omega) faultless idle
    refine ⟨dropped_eq_abandoned requests faultless, live, ?_⟩
    rw [Store.size_eq_zero_iff]
    simp only [← Bool.not_eq_true, live]
    rw [← List.eq_nil_iff_forall_not_mem, issued]
    simp [Event.Settles, unsharedOf, start, ofProgram]
  · have books := holds_after primitives UInt32.size Kept (fun name kept => seed_kept name kept)
      (fun policy kept => kept) (fun within kept => (step_sound kept within).1) kept later
      (by omega)
    refine ⟨books.balanced.live id (by simp [lost]), fun told => ?_⟩
    have swept := garbage_swept told
    have books : ((engine.after primitives later).step primitives).2.Kept _ _ :=
      (step_sound books within).1
    simp [books.balanced.live id (by simp [lost])] at swept
  · exact Nat.pos_of_ne_zero fun zero => tidy idle id cell held (UInt64.toNat_inj.mp zero)

/-- The function lists its first cell in a call and starts another call without having
enqueued the first. The second call is enqueued. -/
private def leakDemo : Program :=
  .ofFunctions
    [⟨"f", [.create, .output, .descCall, .create, .assign 7, .input, .push "g", .pushFunc]⟩,
    ⟨"g", []⟩] (by decide)

private def leakDemoRun : List Request := .seed "f" :: List.replicate 10 .step

/-- The first cell is left behind, also after another round, and the second is not. -/
theorem leak_report_exact_abandoned :
    let start := ofProgram leakDemo ()
    let engine := start.after (.scripted []) leakDemoRun
    leakDemoRun.count .step < UInt32.size ∧ start.Faultless (.scripted []) leakDemoRun ∧
      (engine.step (.scripted [])).1 = .ok .done ∧
      start.abandoned (.scripted []) leakDemoRun = [1] ∧
      (∀ id, engine.store.contains id = true ↔ id ∈ start.dropped (.scripted []) leakDemoRun) ∧
      (engine.store.size = 0 ↔ Event.allIssued (start.journal (.scripted []) leakDemoRun) = true) ∧
      (engine.after (.scripted []) leakDemoRun).store.contains 1 = true ∧
      ∀ id cell, engine.store.get? id = some cell → 0 < cell.refs.toNat := by
  have few : leakDemoRun.count .step + leakDemoRun.count .step < UInt32.size := by decide
  have faultless : (ofProgram leakDemo ()).Faultless (.scripted []) leakDemoRun :=
    ⟨rfl, rfl, rfl, rfl, rfl, rfl, rfl, rfl, rfl, rfl, rfl, trivial⟩
  have given : (ofProgram leakDemo ()).abandoned (.scripted []) leakDemoRun = [1] := rfl
  obtain ⟨exact, stays, referenced⟩ :=
    leak_report_exact (.scripted []) leakDemo () leakDemoRun (by omega)
  obtain ⟨same, live, issued⟩ := exact faultless rfl
  have lost : 1 ∈ (ofProgram leakDemo ()).dropped (.scripted []) leakDemoRun := by
    rw [same, given]
    exact List.mem_singleton.mpr rfl
  exact ⟨by omega, faultless, rfl, given, live, issued, (stays leakDemoRun few 1 lost).1,
    referenced rfl⟩

end Engine

end Dataflow
