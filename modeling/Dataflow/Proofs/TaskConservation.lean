import Mathlib.Data.List.Nodup
import Dataflow.Primitives.Scripted
import Dataflow.Proofs.LeakReport
import Dataflow.Proofs.Readiness
import Dataflow.Proofs.StalledTasks

/-! The scheduler loses, repeats and changes no task, and it keeps none waiting that is
ready. A docket numbers all tasks in the order in which they are enqueued and notes the
numbers of those dispatched; the queue is at all times what the docket has pending. Since
the first ready task is the one dispatched, nobody but the tasks ahead of it comes before
a task that is ready. -/
namespace Dataflow

/-! ### Dockets -/

/-- A task and its number in the order in which tasks are enqueued. -/
abbrev Ticket := Task × Nat

/-- All tasks enqueued so far and the tickets of those dispatched, both in order. -/
structure Docket where
  enqueued : List Task
  dispatched : List Ticket
deriving DecidableEq

namespace Docket

variable {docket : Docket} {ticket : Ticket} {tasks : List Task}

def empty : Docket := ⟨[], []⟩

/-- What was enqueued and not dispatched, in order. -/
def pending (docket : Docket) : List Ticket :=
  docket.enqueued.zipIdx.filter (· ∉ docket.dispatched)

def enqueue (docket : Docket) (issued : List Task) : Docket :=
  { docket with enqueued := docket.enqueued ++ issued }

/-- Dispatch the ticket at a place among those pending. -/
def dispatch (docket : Docket) (place : Nat) : Docket :=
  { docket with dispatched := docket.dispatched ++ docket.pending[place]?.toList }

/-- Dispatch the ticket at the place that was taken, if one was, and enqueue what was issued. -/
def note (docket : Docket) (taken : Option Nat) (issued : List Task) : Docket :=
  match taken with
  | some place => (docket.dispatch place).enqueue issued
  | none => docket.enqueue issued

/-- Only tickets of enqueued tasks are dispatched, none of them twice, and the given tasks
are those that are pending. -/
structure Tracks (docket : Docket) (tasks : List Task) : Prop where
  once : docket.dispatched.Nodup
  issued : ∀ ticket ∈ docket.dispatched, ticket ∈ docket.enqueued.zipIdx
  pending : docket.pending.map (·.1) = tasks

theorem empty_tracks : empty.Tracks [] :=
  ⟨List.nodup_nil, nofun, rfl⟩

theorem mem_pending :
    ticket ∈ docket.pending ↔ ticket ∈ docket.enqueued.zipIdx ∧ ticket ∉ docket.dispatched := by
  simp [pending]

theorem pending_nodup (docket : Docket) : docket.pending.Nodup := by
  refine List.Nodup.filter _ (List.Nodup.of_map Prod.snd ?_)
  rw [List.zipIdx_map_snd]
  exact List.nodup_range'

theorem pending_dispatch (docket : Docket) (place : Nat) :
    (docket.dispatch place).pending = docket.pending.eraseIdx place := by
  cases found : docket.pending[place]? with
  | none =>
    rw [List.eraseIdx_of_length_le (List.getElem?_eq_none_iff.mp found)]
    simp [dispatch, found]
  | some ticket =>
    obtain ⟨within, here⟩ := List.getElem?_eq_some_iff.mp found
    rw [← docket.pending_nodup.erase_getElem place within, here,
      docket.pending_nodup.erase_eq_filter, pending, dispatch, found, pending, List.filter_filter]
    refine List.filter_congr fun other _ => Bool.eq_iff_iff.mpr ?_
    simp [and_comm]

/-- The numbers of new tickets are new. -/
theorem pending_enqueue (tracks : docket.Tracks tasks) (issued : List Task) :
    (docket.enqueue issued).pending =
      docket.pending ++ issued.zipIdx docket.enqueued.length := by
  rw [pending, enqueue, List.zipIdx_append, List.filter_append, Nat.zero_add]
  refine congrArg (docket.pending ++ ·) (List.filter_eq_self.mpr fun ticket new => ?_)
  have numbered := List.le_snd_of_mem_zipIdx new
  refine decide_eq_true fun old => ?_
  have before := List.snd_lt_of_mem_zipIdx (tracks.issued ticket old)
  omega

theorem dispatch_tracks (tracks : docket.Tracks tasks) (place : Nat) :
    (docket.dispatch place).Tracks (tasks.eraseIdx place) where
  once := by
    refine List.nodup_append.mpr ⟨tracks.once, ?_, ?_⟩
    · cases docket.pending[place]? <;> simp
    · rintro ticket before _ now rfl
      have waiting := List.mem_of_getElem? (Option.mem_toList.mp now)
      exact (mem_pending.mp waiting).2 before
  issued := by
    intro ticket member
    rcases List.mem_append.mp member with before | now
    · exact tracks.issued ticket before
    · exact (mem_pending.mp (List.mem_of_getElem? (Option.mem_toList.mp now))).1
  pending := by
    rw [pending_dispatch, ← tracks.pending]
    simp [List.eraseIdx_eq_take_drop_succ, List.map_take, List.map_drop]

theorem enqueue_tracks (tracks : docket.Tracks tasks) (issued : List Task) :
    (docket.enqueue issued).Tracks (tasks ++ issued) where
  once := tracks.once
  issued := by
    intro ticket member
    rw [enqueue, List.zipIdx_append]
    exact List.mem_append_left _ (tracks.issued ticket member)
  pending := by
    rw [pending_enqueue tracks, List.map_append, tracks.pending, List.zipIdx_map_fst]

/-- The tasks are those of the pending tickets, place by place. -/
theorem Tracks.get (tracks : docket.Tracks tasks) (place : Nat) :
    tasks[place]? = docket.pending[place]?.map (·.1) := by
  rw [← tracks.pending, List.getElem?_map]

theorem note_grows (docket : Docket) (taken : Option Nat) (issued : List Task) :
    docket.enqueued <+: (docket.note taken issued).enqueued ∧
      docket.dispatched <+: (docket.note taken issued).dispatched := by
  cases taken with
  | none => exact ⟨List.prefix_append _ _, List.prefix_rfl⟩
  | some place => exact ⟨List.prefix_append _ _, List.prefix_append _ _⟩

/-- A pending ticket moves up by one place for each ticket that is dispatched ahead of it. -/
theorem note_moves_up (tracks : docket.Tracks tasks) {place : Nat}
    (waits : docket.pending[place]? = some ticket) {taken : Option Nat}
    (ahead : ∀ first, taken = some first → first < place) (issued : List Task) :
    ∃ recent now, (docket.note taken issued).dispatched = docket.dispatched ++ recent ∧
      (docket.note taken issued).pending[now]? = some ticket ∧ now + recent.length = place := by
  have within := (List.getElem?_eq_some_iff.mp waits).1
  cases taken with
  | none =>
    refine ⟨[], place, (List.append_nil _).symm, ?_, rfl⟩
    rw [note, pending_enqueue tracks, List.getElem?_append_left within, waits]
  | some first =>
    have before := ahead first rfl
    have found := List.getElem?_eq_getElem (Nat.lt_trans before within)
    have inside : place - 1 < (docket.pending.eraseIdx first).length := by
      rw [List.length_eraseIdx_of_lt (Nat.lt_trans before within)]
      omega
    refine ⟨[_], place - 1, congrArg (docket.dispatched ++ Option.toList ·) found, ?_, ?_⟩
    · rw [note, pending_enqueue (dispatch_tracks tracks first), pending_dispatch,
        List.getElem?_append_left inside, List.getElem?_eraseIdx_of_ge (by omega),
        Nat.sub_add_cancel (by omega), waits]
    · rw [List.length_singleton]
      omega

end Docket

/-! ### The scheduler's choice -/

/-- What is not bound throughout has an unbound cell. -/
theorem Store.allBound_false {store : Store} {ids : List CellId}
    (waits : store.allBound ids = .ok false) :
    ∃ id ∈ ids, ∃ cell, store.get? id = some cell ∧ cell.bound = false := by
  induction ids with
  | nil => cases waits
  | cons id rest ih =>
    rw [allBound] at waits
    split at waits
    · obtain ⟨other, member, unbound⟩ := ih waits
      exact ⟨other, List.mem_cons_of_mem _ member, unbound⟩
    · rename_i answer
      cases held : store.get? id with
      | none => simp [isBound, fetch, held, Except.map] at answer
      | some cell =>
        refine ⟨id, List.mem_cons_self, cell, held, ?_⟩
        simpa [isBound, fetch, held, Except.map] using answer
    · cases waits

/-! ### The tasks that a command enqueues -/

/-- A function enqueues the call that it has put together, under the name on top of its
stack. No other command enqueues a task. -/
def Frame.commandIssues (frame : Frame) : Command → List Task
  | .pushFunc =>
    match frame.stack with
    | .literal name :: _ => [{ frame.call.task with name := some name }]
    | _ => []
  | _ => []

/-- A command adds to the queue what it issues, whether it completes or not. -/
theorem Machine.execute_issues {machine : Machine} {calls : Nat} {dropped : List CellId}
    (kept : machine.Kept calls dropped) (policy : ReadPolicy) (command : Command) :
    (∀ after, machine.execute policy command = .ok after →
      after.queue.tasks = machine.queue.tasks ++ machine.frame.commandIssues command) ∧
    ∀ stop left, machine.execute policy command = .error (stop, left) →
      left.queue.tasks = machine.queue.tasks ++ machine.frame.commandIssues command := by
  constructor
  · intro after executed
    cases execute_ok_iff.mp executed with
    | pushFunc stack sound raised => simp [Frame.commandIssues, stack, Queue.push, Call.issued]
    | _ => exact (List.append_nil _).symm
  · intro stop left stopped
    have same : left.queue = machine.queue := by
      rcases execute_spares (shared_live kept) stopped with rfl | ⟨top, rest, -, rfl⟩ <;> rfl
    -- a call with a name on the stack would have been enqueued
    have nothing : machine.frame.commandIssues command = [] := by
      unfold Frame.commandIssues
      split
      · split
        · rename_i name rest stack
          obtain ⟨store, raised, -⟩ := Store.increfAll_live _ (shared_live kept)
          have sound := (kept.held machine.frame rfl).sound
          have rule : Executes policy machine .pushFunc _ := .pushFunc stack sound raised
          cases stopped.symm.trans (execute_ok_iff.mpr rule)
        · rfl
      · rfl
    rw [same, nothing, List.append_nil]

/-! ### The tasks that a step takes and enqueues -/

namespace Engine

variable {engine : Engine σ} {frame : Frame} {task : Task} {place : Nat} {request : Request}
  {calls : Nat} {dropped : List CellId}

theorem taken_queued (taken : engine.taken? request = some place) :
    ∃ task, engine.queue.get? place = some task := by
  obtain ⟨-, -, skipped, task, later, chosen, rfl⟩ := taken_cases taken
  exact ⟨task, by simp [Queue.get?, (Selection.ready_eq chosen).1]⟩

/-- The task that a step takes is the first that is ready. -/
theorem before_taken_blocked (taken : engine.taken? request = some place) {earlier : Nat}
    (ahead : earlier < place) (queued : engine.queue.get? earlier = some task) :
    task.isReady engine.store = .ok false := by
  obtain ⟨-, -, skipped, found, later, chosen, rfl⟩ := taken_cases taken
  have first := Queue.select_ready_iff.mp chosen
  apply first.waiting
  rw [Queue.get?, first.queued, List.getElem?_append_left ahead] at queued
  exact List.mem_of_getElem? queued

/-- With a ready task in its queue, an idle engine takes that task or one ahead of it. -/
theorem takes_of_ready (kept : engine.Kept calls dropped) (idle : engine.frame = none)
    (queued : engine.queue.get? place = some task) (ready : task.isReady engine.store = .ok true) :
    ∃ first ≤ place, engine.taken? .step = some first := by
  have member : task ∈ engine.queue.tasks := List.mem_of_getElem? queued
  cases chosen : engine.queue.select engine.store with
  | stalled skipped =>
    have blocked := (Selection.stalled_iff.mp chosen).2 task member
    cases blocked.symm.trans ready
  | undecided skipped other fault =>
    refine absurd chosen (Selection.not_undecided fun pending waits id input => ?_)
    exact queued_live kept waits (List.mem_append.mpr (.inl input))
  | ready skipped found later =>
    have taken := (remaining_ready idle chosen).1
    refine ⟨skipped.length, Nat.le_of_not_lt fun ahead => ?_, taken⟩
    cases (before_taken_blocked taken ahead queued).symm.trans ready

def advanceIssues (engine : Engine σ) (frame : Frame) : List Task :=
  match engine.program.get? frame.label with
  | none => []
  | some function =>
    match function.commands[frame.position.toNat]? with
    | none => []
    | some command => frame.commandIssues command

/-- The tasks that a request enqueues. The first command of a function finds an empty stack
and enqueues nothing. -/
def enqueues (engine : Engine σ) : Request → List Task
  | .seed name => [.named name]
  | .setPolicy _ => []
  | .step =>
    match engine.frame with
    | some frame => engine.advanceIssues frame
    | none => []

theorem advance_queue (engine : Engine σ) (running : engine.frame = some frame)
    (kept : engine.Kept calls dropped) :
    (engine.advance frame).2.queue.tasks = engine.queue.tasks ++ engine.advanceIssues frame := by
  unfold advance advanceIssues
  cases engine.program.get? frame.label with
  | none => exact (List.append_nil _).symm
  | some function =>
    dsimp only
    cases function.commands[frame.position.toNat]? with
    | none => exact (List.append_nil _).symm
    | some command =>
      obtain ⟨completes, stops⟩ :=
        Machine.execute_issues (machine_kept running kept) engine.policy command
      dsimp only
      cases executed : (engine.machine frame).execute engine.policy command with
      | ok machine => exact completes machine executed
      | error stopped =>
        obtain ⟨stop, left⟩ := stopped
        cases stop with
        | fault fault => exact stops _ left executed
        | unsoundCall => exact stops _ left executed

theorem advanceIssues_start (engine : Engine σ) (task : Task) :
    engine.advanceIssues (.start task) = [] := by
  unfold advanceIssues
  split
  · rfl
  · split
    · rfl
    · unfold Frame.commandIssues
      split <;> rfl

theorem invoke_queue (primitives : Primitives σ) (engine : Engine σ) (key : String)
    (task : Task) : (engine.invoke primitives key task).2.queue = engine.queue := by
  unfold invoke
  split
  · rfl
  · split
    · rfl
    · unfold settle
      split
      · rfl
      · split <;> rfl

private theorem dispatch_queue (primitives : Primitives σ) (engine : Engine σ)
    (inHand : Accounts calls (dropped ++ task.cells) engine.store engine.queue none) :
    (engine.dispatch primitives task).2.queue = engine.queue := by
  unfold dispatch
  split
  · rfl
  · exact invoke_queue primitives engine _ task
  · have tasks := advance_queue { engine with frame := some (.start task) } rfl
      (accounts_start inHand)
    rw [advanceIssues_start, List.append_nil] at tasks
    exact congrArg Queue.mk tasks

private theorem schedule_untaken (primitives : Primitives σ) (idle : engine.frame = none)
    (untaken : engine.taken? .step = none) : (engine.schedule primitives).2 = engine := by
  unfold schedule
  split
  · rfl
  · cases chosen : engine.queue.select engine.store with
    | stalled skipped => rfl
    | undecided skipped task fault => rfl
    | ready skipped task later =>
      have taken := (remaining_ready idle chosen).1
      cases untaken.symm.trans taken

private theorem schedule_queue (primitives : Primitives σ) (idle : engine.frame = none)
    (kept : engine.Kept calls dropped) :
    (engine.schedule primitives).2.queue.tasks = engine.remaining .step := by
  cases taken : engine.taken? .step with
  | none => rw [schedule_untaken primitives idle taken, remaining, taken]
  | some place =>
    obtain ⟨-, -, skipped, task, later, chosen, -⟩ := taken_cases taken
    have filled : ¬ engine.queue.isEmpty := by
      simp [Queue.isEmpty, (Selection.ready_eq chosen).1]
    obtain ⟨inHand, -⟩ := take_ready idle kept chosen
    rw [(remaining_ready idle chosen).2, schedule, if_neg filled, chosen]
    exact congrArg Queue.tasks
      (dispatch_queue primitives { engine with queue := ⟨skipped ++ later⟩ } inHand)

/-- The queue after a request is what the request left there and what it enqueued. -/
theorem serve_queue (primitives : Primitives σ) (kept : engine.Kept calls dropped)
    (request : Request) :
    (engine.serve primitives request).2.queue.tasks =
      engine.remaining request ++ engine.enqueues request := by
  cases request with
  | seed name => rfl
  | setPolicy policy => exact (List.append_nil _).symm
  | step =>
    show (engine.step primitives).2.queue.tasks = _
    cases running : engine.frame with
    | some frame =>
      have tasks := advance_queue engine running kept
      simpa [step, remaining, taken?, enqueues, running] using tasks
    | none =>
      have tasks := schedule_queue primitives running kept
      simpa [step, enqueues, running] using tasks

/-! ### Histories -/

/-- The docket after all requests, in order. -/
def docket (primitives : Primitives σ) : Engine σ → Docket → List Request → Docket
  | _, docket, [] => docket
  | engine, docket, request :: rest =>
    (engine.serve primitives request).2.docket primitives
      (docket.note (engine.taken? request) (engine.enqueues request)) rest

theorem docket_append (primitives : Primitives σ) (engine : Engine σ) (docket : Docket)
    (requests later : List Request) :
    engine.docket primitives docket (requests ++ later) =
      (engine.after primitives requests).docket primitives
        (engine.docket primitives docket requests) later := by
  induction requests generalizing engine docket with
  | nil => rfl
  | cons request rest ih => exact ih _ _

/-- The events of a request. Only steps report any. -/
def serveJournal (primitives : Primitives σ) (engine : Engine σ) : Request → List Event
  | .step => engine.stepJournal primitives
  | _ => []

theorem journal_cons (primitives : Primitives σ) (engine : Engine σ) (request : Request)
    (rest : List Request) :
    engine.journal primitives (request :: rest) = engine.serveJournal primitives request ++
      (engine.serve primitives request).2.journal primitives rest := by
  cases request <;> rfl

theorem serve_kept (primitives : Primitives σ) (kept : engine.Kept calls dropped)
    (few : calls < UInt32.size) (request : Request) :
    ∃ dropped, (engine.serve primitives request).2.Kept (calls + [request].count .step)
      dropped := by
  cases request with
  | seed name => exact ⟨dropped, seed_kept name kept⟩
  | setPolicy policy => exact ⟨dropped, kept⟩
  | step => exact ⟨_, (step_sound kept few).1⟩

/-- What every request keeps, of an engine with kept books, holds after every history. The
property may speak of the events reported so far and of the docket. -/
theorem docketed (primitives : Primitives σ) (Holds : List Event → Docket → Engine σ → Prop)
    (served : ∀ {calls dropped events docket engine} request, Kept calls dropped engine →
      calls < UInt32.size → Holds events docket engine →
      Holds (events ++ engine.serveJournal primitives request)
        (docket.note (engine.taken? request) (engine.enqueues request))
        (engine.serve primitives request).2)
    (events : List Event) {docket : Docket} (kept : engine.Kept calls dropped)
    (holds : Holds events docket engine) (requests : List Request)
    (few : calls + requests.count .step < UInt32.size) :
    Holds (events ++ engine.journal primitives requests)
      (engine.docket primitives docket requests) (engine.after primitives requests) := by
  induction requests generalizing engine calls dropped events docket with
  | nil => simpa [journal, Engine.docket, after] using holds
  | cons request rest ih =>
    have split : (request :: rest).count .step = [request].count .step + rest.count .step := by
      rw [← List.count_append, List.singleton_append]
    obtain ⟨now, next⟩ := serve_kept primitives kept (by omega) request
    rw [journal_cons, ← List.append_assoc]
    exact ih _ next (served request kept (by omega) holds) (by omega)

/-- A request that is noted keeps docket and queue together. -/
theorem note_tracks (primitives : Primitives σ) (kept : engine.Kept calls dropped)
    {docket : Docket} (tracks : docket.Tracks engine.queue.tasks) (request : Request) :
    (docket.note (engine.taken? request) (engine.enqueues request)).Tracks
      (engine.serve primitives request).2.queue.tasks := by
  rw [serve_queue primitives kept request, remaining]
  unfold Docket.note
  cases engine.taken? request with
  | none => exact Docket.enqueue_tracks tracks _
  | some place => exact Docket.enqueue_tracks (Docket.dispatch_tracks tracks place) _

/-- The tickets dispatched are those of the tasks reported to run. -/
theorem note_reported (primitives : Primitives σ) {docket : Docket}
    (tracks : docket.Tracks engine.queue.tasks) (request : Request) :
    (docket.note (engine.taken? request) (engine.enqueues request)).dispatched.map (·.1) =
      docket.dispatched.map (·.1) ++
        (engine.serveJournal primitives request).filterMap Event.running? := by
  have told : (engine.serveJournal primitives request).filterMap Event.running? =
      ((engine.taken? request).bind engine.queue.get?).toList := by
    cases request with
    | seed name => rfl
    | setPolicy policy => rfl
    | step => exact stepJournal_running primitives engine
  rw [told]
  cases engine.taken? request with
  | none => exact (List.append_nil _).symm
  | some place =>
    rw [Option.bind_some, Queue.get?, tracks.get place]
    cases found : docket.pending[place]? <;>
      simp [Docket.note, Docket.dispatch, Docket.enqueue, found]

/-- A ready task stays ready while others are taken. -/
theorem ready_stays (primitives : Primitives σ) (kept : engine.Kept calls dropped)
    (few : calls < UInt32.size) (queued : engine.queue.get? place = some task)
    (ready : task.isReady engine.store = .ok true) (stays : engine.taken? request ≠ some place) :
    task.isReady (engine.serve primitives request).2.store = .ok true := by
  refine Store.allBound_iff.mpr fun id input => ?_
  obtain ⟨cell, held, bound⟩ := Store.allBound_iff.mp ready id input
  exact listed_stays_bound primitives kept few request (mem_remaining queued stays)
    (List.mem_append.mpr (.inl input)) held bound

/-- How a ticket fares that was ready with `place` tickets ahead of it. Either it is among
the first `place + 1` dispatched since, or it is pending and ready, and it moved up by a
place for each ticket dispatched since. -/
def Fares (ticket : Ticket) (place : Nat) (past : List Ticket) (docket : Docket)
    (engine : Engine σ) : Prop :=
  ∃ recent, docket.dispatched = past ++ recent ∧
    (ticket ∈ recent.take (place + 1) ∨
      ∃ now, docket.pending[now]? = some ticket ∧ now + recent.length ≤ place ∧
        ticket.1.isReady engine.store = .ok true)

theorem note_fares (primitives : Primitives σ) (kept : engine.Kept calls dropped)
    (few : calls < UInt32.size) {docket : Docket} (tracks : docket.Tracks engine.queue.tasks)
    {ticket : Ticket} {past : List Ticket} (fares : Fares ticket place past docket engine)
    (request : Request) :
    Fares ticket place past (docket.note (engine.taken? request) (engine.enqueues request))
      (engine.serve primitives request).2 := by
  obtain ⟨recent, since, served | ⟨now, waits, bound, ready⟩⟩ := fares
  · obtain ⟨more, grown⟩ := (docket.note_grows (engine.taken? request) (engine.enqueues request)).2
    refine ⟨recent ++ more, ?_, .inl ?_⟩
    · rw [← grown, since, List.append_assoc]
    · rw [List.take_append]
      exact List.mem_append_left _ served
  · have queued : engine.queue.get? now = some ticket.1 := by
      rw [Queue.get?, tracks.get now, waits]
      rfl
    by_cases taken : engine.taken? request = some now
    · refine ⟨recent ++ [ticket], ?_, .inl ?_⟩
      · rw [taken, ← List.append_assoc, ← since]
        exact congrArg (docket.dispatched ++ Option.toList ·) waits
      · rw [List.take_of_length_le (by rw [List.length_append, List.length_singleton]; omega)]
        exact List.mem_append_right _ List.mem_cons_self
    · -- what the request takes is ahead, as it is the first that is ready
      have ahead : ∀ first, engine.taken? request = some first → first < now := by
        intro first takes
        rcases Nat.lt_trichotomy first now with before | rfl | behind
        · exact before
        · exact absurd takes taken
        · cases (before_taken_blocked takes behind queued).symm.trans ready
      obtain ⟨more, next, grown, waits, moved⟩ :=
        Docket.note_moves_up tracks waits ahead (engine.enqueues request)
      refine ⟨recent ++ more, ?_, .inr ⟨next, waits, ?_, ?_⟩⟩
      · rw [grown, since, List.append_assoc]
      · rw [List.length_append]
        omega
      · exact ready_stays primitives kept few queued ready taken

theorem docket_grows (primitives : Primitives σ) (engine : Engine σ) (docket : Docket)
    (requests : List Request) :
    docket.enqueued <+: (engine.docket primitives docket requests).enqueued ∧
      docket.dispatched <+: (engine.docket primitives docket requests).dispatched := by
  induction requests generalizing engine docket with
  | nil => exact ⟨List.prefix_rfl, List.prefix_rfl⟩
  | cons request rest ih =>
    obtain ⟨enqueued, dispatched⟩ :=
      docket.note_grows (engine.taken? request) (engine.enqueues request)
    obtain ⟨later, after⟩ := ih (engine.serve primitives request).2 (docket.note _ _)
    exact ⟨enqueued.trans later, dispatched.trans after⟩

/-- Docket, queue and report agree after every history. -/
theorem history_tracks (primitives : Primitives σ) (program : Program) (host : σ)
    (requests : List Request) (few : requests.count .step < UInt32.size) :
    let docket := (ofProgram program host).docket primitives .empty requests
    docket.Tracks ((ofProgram program host).after primitives requests).queue.tasks ∧
      docket.dispatched.map (·.1) =
        ((ofProgram program host).journal primitives requests).filterMap Event.running? := by
  refine docketed primitives (fun events docket engine => docket.Tracks engine.queue.tasks ∧
    docket.dispatched.map (·.1) = events.filterMap Event.running?)
    (fun request kept _ holds => ?_) [] (new_kept program host) ⟨Docket.empty_tracks, rfl⟩
    requests (by omega)
  obtain ⟨tracks, reported⟩ := holds
  refine ⟨note_tracks primitives kept tracks request, ?_⟩
  rw [note_reported primitives tracks, reported, List.filterMap_append]

/-- A ready ticket fares well over every further history. -/
theorem later_fares (primitives : Primitives σ) (kept : engine.Kept calls dropped)
    {docket : Docket} (tracks : docket.Tracks engine.queue.tasks) {ticket : Ticket}
    (waits : docket.pending[place]? = some ticket)
    (ready : ticket.1.isReady engine.store = .ok true) (later : List Request)
    (few : calls + later.count .step < UInt32.size) :
    (engine.docket primitives docket later).Tracks (engine.after primitives later).queue.tasks ∧
      Fares ticket place docket.dispatched (engine.docket primitives docket later)
        (engine.after primitives later) := by
  have fares : Fares ticket place docket.dispatched docket engine :=
    ⟨[], (List.append_nil _).symm, .inr ⟨place, waits, Nat.le_refl _, ready⟩⟩
  exact docketed primitives
    (fun _ docket' engine' => docket'.Tracks engine'.queue.tasks ∧
      Fares ticket place docket.dispatched docket' engine')
    (fun request kept few holds => ⟨note_tracks primitives kept holds.1 request,
      note_fares primitives kept few holds.1 holds.2 request⟩)
    [] kept ⟨tracks, fares⟩ later few

/-- The scheduler loses, repeats and changes no task and keeps no ready task waiting. After
every history the queue holds the tasks enqueued so far without those dispatched, in order;
none of them was dispatched twice, and those dispatched are the ones reported to run. A
docket only grows. Every task ahead of the one that is dispatched has an unbound input.

A task that is ready with `place` tasks ahead of it is among the next `place + 1`
dispatched. As long as it is not, it stays ready and moves up by a place for each task
dispatched, and an idle engine dispatches it or a task ahead of it at its next step. -/
theorem scheduler_conserves_tasks (primitives : Primitives σ) (program : Program) (host : σ)
    (requests later : List Request)
    (few : requests.count .step + later.count .step < UInt32.size) :
    let start := ofProgram program host
    let engine := start.after primitives requests
    let final := start.after primitives (requests ++ later)
    let docket := start.docket primitives .empty requests
    let closing := start.docket primitives .empty (requests ++ later)
    docket.pending.map (·.1) = engine.queue.tasks ∧
    docket.dispatched.Nodup ∧ (∀ ticket ∈ docket.dispatched, ticket ∈ docket.enqueued.zipIdx) ∧
    docket.dispatched.map (·.1) = (start.journal primitives requests).filterMap Event.running? ∧
    docket.enqueued <+: closing.enqueued ∧ docket.dispatched <+: closing.dispatched ∧
    (∀ place, engine.taken? .step = some place → ∀ earlier < place,
      ∃ task, engine.queue.get? earlier = some task ∧
        ∃ id ∈ task.inputs, ∃ cell, engine.store.get? id = some cell ∧ cell.bound = false) ∧
    ∀ place ticket, docket.pending[place]? = some ticket →
      ticket.1.isReady engine.store = .ok true →
      let recent := closing.dispatched.drop docket.dispatched.length
      (place < recent.length → ticket ∈ recent.take (place + 1)) ∧
      (ticket ∉ recent → ∃ now, closing.pending[now]? = some ticket ∧
        now + recent.length ≤ place ∧ ticket.1.isReady final.store = .ok true ∧
        (final.frame = none → ∃ first ≤ now, final.taken? .step = some first)) := by
  intro start engine final docket closing
  have kept := history_kept primitives program host requests (by omega)
  have keptFinal := history_kept primitives program host (requests ++ later)
    (by rw [List.count_append]; omega)
  obtain ⟨tracks, reported⟩ := history_tracks primitives program host requests (by omega)
  have closed : closing = engine.docket primitives docket later :=
    docket_append primitives start .empty requests later
  have reached : final = engine.after primitives later :=
    after_append primitives start requests later
  obtain ⟨enqueued, dispatched⟩ := docket_grows primitives engine docket later
  rw [← closed] at enqueued dispatched
  refine ⟨tracks.pending, tracks.once, tracks.issued, reported, enqueued, dispatched, ?_, ?_⟩
  · intro place taken earlier ahead
    obtain ⟨first, queued⟩ := taken_queued taken
    have within := Nat.lt_trans ahead (List.getElem?_eq_some_iff.mp queued).1
    refine ⟨_, List.getElem?_eq_getElem within, ?_⟩
    exact Store.allBound_false
      (before_taken_blocked taken ahead (List.getElem?_eq_getElem within))
  · intro place ticket waits ready recent
    have fares := later_fares primitives kept tracks waits ready later few
    rw [← closed, ← reached] at fares
    obtain ⟨tracksFinal, since, grown, outcome⟩ := fares
    have same : recent = since := by
      rw [show recent = closing.dispatched.drop docket.dispatched.length from rfl, grown,
        List.drop_left]
    rw [same]
    rcases outcome with served | ⟨now, waits, bound, ready⟩
    · exact ⟨fun _ => served, fun unserved => absurd (List.mem_of_mem_take served) unserved⟩
    · refine ⟨fun many => by omega, fun _ => ⟨now, waits, bound, ready, fun idle => ?_⟩⟩
      have queued : final.queue.get? now = some ticket.1 := by
        rw [Queue.get?, tracksFinal.get now, waits]
        rfl
      exact takes_of_ready keptFinal idle queued ready

/-- The first function leaves a task that waits for a cell which nobody binds. -/
private def queueDemo : Program :=
  .ofFunctions [⟨"f", [.create, .input, .push "g", .pushFunc]⟩, ⟨"g", []⟩, ⟨"h", []⟩] (by decide)

/-- The ready task is second in the queue. The two tasks dispatched next are itself and one
enqueued after it, while the task ahead of it still waits. -/
theorem scheduler_conserves_tasks_bypassing :
    let requests := .seed "f" :: List.replicate 5 Request.step ++ [.seed "h"]
    let later := [.seed "h", .step, .step, .step]
    let start := ofProgram queueDemo ()
    let docket := start.docket (.scripted []) .empty requests
    let closing := start.docket (.scripted []) .empty (requests ++ later)
    let blocked : Ticket := (⟨some "g", [1], []⟩, 1)
    requests.count .step + later.count .step < UInt32.size ∧
      docket.dispatched = [(.named "f", 0)] ∧
      docket.pending = [blocked, (.named "h", 2)] ∧
      closing.dispatched = [(.named "f", 0), (.named "h", 2), (.named "h", 3)] ∧
      closing.pending = [blocked] ∧
      (.named "h", 2) ∈ (closing.dispatched.drop docket.dispatched.length).take 2 := by
  refine ⟨by decide, rfl, rfl, rfl, rfl, ?_⟩
  have conserved := scheduler_conserves_tasks (.scripted []) queueDemo ()
    (.seed "f" :: List.replicate 5 .step ++ [.seed "h"]) [.seed "h", .step, .step, .step]
    (by decide)
  exact (conserved.2.2.2.2.2.2.2 1 (.named "h", 2) rfl rfl).1 (by decide)

end Engine

end Dataflow
