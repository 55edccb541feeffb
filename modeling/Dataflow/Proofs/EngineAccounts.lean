import Dataflow.Proofs.CommandSafety

/-! The books of an engine across a step. A task in hand, between the queue and
a frame or after its end, is booked under the dropped roles: if it runs, they
are taken back out, and if it cannot be run, they stay there. -/
namespace Dataflow

variable {calls : Nat} {dropped : List CellId} {store : Store} {queue : Queue} {frame : Frame}
  {task : Task}

/-! ### Choosing a task -/

namespace Store

/-- Whether live cells are bound can always be told. -/
theorem allBound_live {ids : List CellId} (live : ∀ id ∈ ids, store.contains id = true) :
    ∃ answer, store.allBound ids = .ok answer := by
  induction ids with
  | nil => exact ⟨true, rfl⟩
  | cons id rest ih =>
    obtain ⟨cell, held⟩ := contains_iff.mp (live id (by simp))
    obtain ⟨answer, later⟩ := ih fun other member => live other (by simp [member])
    cases bound : cell.bound with
    | true => exact ⟨answer, by simp [allBound, isBound, fetch, held, bound, Except.map, later]⟩
    | false => exact ⟨false, by simp [allBound, isBound, fetch, held, bound, Except.map]⟩

theorem allBound_iff {ids : List CellId} : store.allBound ids = .ok true ↔
    ∀ id ∈ ids, ∃ cell, store.get? id = some cell ∧ cell.bound = true := by
  induction ids with
  | nil => simp [allBound]
  | cons id rest ih =>
    cases held : store.get? id with
    | none => simp [allBound, isBound, fetch, held, Except.map]
    | some cell =>
      cases bound : cell.bound with
      | true => simp [allBound, isBound, fetch, held, bound, Except.map, ih]
      | false => simp [allBound, isBound, fetch, held, bound, Except.map]

/-- Bound cells are read under either policy, and give their values in order. -/
theorem readAll_cells {ids : List CellId}
    (bound : ∀ id ∈ ids, ∃ cell, store.get? id = some cell ∧ cell.bound = true)
    (policy : ReadPolicy) :
    ∃ cells : List Cell, ids.map store.get? = cells.map some ∧ (∀ cell ∈ cells, cell.bound = true) ∧
      store.readAll policy ids = .ok (cells.map (·.value)) := by
  induction ids with
  | nil => exact ⟨[], rfl, List.forall_mem_nil _, rfl⟩
  | cons id rest ih =>
    obtain ⟨cell, held, set⟩ := bound id (by simp)
    obtain ⟨cells, found, others, later⟩ := ih fun other member => bound other (by simp [member])
    have first : store.read policy id = .ok cell.value := by simp [read, fetch, held, set]
    rw [readAll] at later
    refine ⟨cell :: cells, by simp [held, found], List.forall_mem_cons.mpr ⟨set, others⟩, ?_⟩
    simp [readAll, List.mapM_cons, first, later, Bind.bind, Except.bind, pure, Except.pure]

theorem readAll_bound {ids : List CellId}
    (bound : ∀ id ∈ ids, ∃ cell, store.get? id = some cell ∧ cell.bound = true)
    (policy : ReadPolicy) : ∃ values, store.readAll policy ids = .ok values := by
  obtain ⟨cells, -, -, read⟩ := readAll_cells bound policy
  exact ⟨_, read⟩

end Store

namespace Selection

/-- The task found is in the queue after the tasks passed over. -/
theorem ready_eq {tasks skipped later : List Task}
    (found : ofTasks store tasks = .ready skipped task later) :
    tasks = skipped ++ task :: later ∧ task.isReady store = .ok true := by
  induction tasks generalizing skipped with
  | nil => cases found
  | cons first rest ih =>
    rw [ofTasks] at found
    split at found
    · rename_i ready
      cases found
      exact ⟨rfl, ready⟩
    · cases chosen : ofTasks store rest with
      | stalled passed => simp [chosen, skip] at found
      | undecided passed other fault => simp [chosen, skip] at found
      | ready passed other after =>
        simp only [chosen, skip, ready.injEq] at found
        obtain ⟨rfl, rfl, rfl⟩ := found
        obtain ⟨shape, ready⟩ := ih chosen
        exact ⟨by rw [shape]; rfl, ready⟩
    · cases found

/-- With live inputs throughout, every task is ready or not. -/
theorem not_undecided {tasks skipped : List Task} {fault : Fault}
    (live : ∀ task ∈ tasks, ∀ id ∈ task.inputs, store.contains id = true) :
    ofTasks store tasks ≠ .undecided skipped task fault := by
  intro found
  induction tasks generalizing skipped with
  | nil => cases found
  | cons first rest ih =>
    obtain ⟨answer, decided⟩ := Store.allBound_live (live first (by simp))
    rw [ofTasks, Task.isReady, decided] at found
    cases answer with
    | true => cases found
    | false =>
      cases chosen : ofTasks store rest with
      | stalled passed => simp [chosen, skip] at found
      | ready passed other after => simp [chosen, skip] at found
      | undecided passed other reason =>
        simp only [chosen, skip, undecided.injEq] at found
        obtain ⟨-, rfl, rfl⟩ := found
        exact ih (fun task member => live task (by simp [member])) chosen

end Selection

/-! ### Moving a task in and out of the books -/

/-- The same references, ascribed to other owners. -/
theorem accounts_regroup {running running' : Option Frame} {queue' : Queue}
    {dropped' : List CellId} (accounts : Accounts calls dropped store queue running)
    (moved : (queue.roles ++ rolesOf running ++ dropped).Perm
      (queue'.roles ++ rolesOf running' ++ dropped'))
    (held : ∀ frame ∈ running', frame.Held calls store) :
    Accounts calls dropped' store queue' running' where
  balanced := Store.balanced_perm accounts.balanced moved
  room := by
    rw [← moved.length_eq]
    exact accounts.room
  ids := accounts.ids
  held := held

theorem accounts_take {skipped later : List Task}
    (accounts : Accounts calls dropped store ⟨skipped ++ task :: later⟩ none) :
    Accounts calls (dropped ++ task.cells) store ⟨skipped ++ later⟩ none := by
  refine accounts_regroup accounts ?_ (fun frame member => by cases member)
  refine List.perm_iff_count.mpr fun id => ?_
  simp only [Queue.roles, rolesOf, List.flatMap_append, List.flatMap_cons, List.count_append,
    List.count_nil]
  omega

theorem accounts_start (accounts : Accounts calls (dropped ++ task.cells) store queue none) :
    Accounts calls dropped store queue (some (.start task)) := by
  refine accounts_regroup accounts ?_ ?_
  · refine List.perm_iff_count.mpr fun id => ?_
    simp only [rolesOf, Frame.roles, Frame.start, show Call.empty.unshared = [] from rfl,
      List.count_append, List.count_nil]
    omega
  · rintro running ⟨⟩
    refine ⟨fun id member => accounts.balanced.live id ?_, rfl, Nat.zero_le _⟩
    simp only [Frame.mentions, Frame.start, Call.empty, Task.blank, Task.cells, List.filterMap_nil,
      List.append_nil] at member
    simp only [List.mem_append, Task.cells] at member ⊢
    exact .inr (.inr member)

theorem accounts_end (accounts : Accounts calls dropped store queue (some frame)) :
    Accounts calls (dropped ++ frame.call.unshared ++ frame.task.cells) store queue none := by
  refine accounts_regroup accounts ?_ (fun frame member => by cases member)
  refine List.perm_iff_count.mpr fun id => ?_
  simp only [rolesOf, Frame.roles, List.count_append, List.count_nil]
  omega

private theorem in_hand {owed : List CellId}
    (accounts : Accounts calls (dropped ++ owed) store queue none) :
    store.Balanced (owed ++ (queue.roles ++ rolesOf none ++ dropped)) := by
  refine Store.balanced_perm accounts.balanced (List.perm_iff_count.mpr fun id => ?_)
  simp only [List.count_append]
  omega

/-- A task in hand that is retired gives all of its references back. -/
theorem accounts_retire (accounts : Accounts calls (dropped ++ task.cells) store queue none) :
    Accounts calls dropped (store.release task.cells).collect queue none := by
  obtain ⟨balanced, live⟩ :=
    Store.balanced_collect (Store.balanced_release task.cells (in_hand accounts))
  refine ⟨balanced, ?_, fun id held => ?_, fun frame member => by cases member⟩
  · have room := accounts.room
    simp only [List.length_append] at room ⊢
    omega
  · have owed := (live id).mp held
    refine accounts.ids id (accounts.balanced.live id ?_)
    simp only [List.mem_append] at owed ⊢
    exact owed.imp_right .inl

/-- The outputs of a task in hand can be bound, whatever the results are. -/
theorem accounts_bindOutputs (results : List Value)
    (accounts : Accounts calls (dropped ++ task.cells) store queue none) :
    ∃ bound, store.bindAll (task.outputs.zip results) = .ok bound ∧
      Accounts calls (dropped ++ task.cells) bound queue none := by
  have live : ∀ binding ∈ task.outputs.zip results, store.contains binding.1 = true := by
    intro binding member
    refine accounts.balanced.live _ ?_
    have listed : binding.1 ∈ task.outputs := (List.of_mem_zip member).1
    simp [Task.cells, listed]
  obtain ⟨bound, done, balanced, same⟩ := Store.balanced_bindAll accounts.balanced live
  exact ⟨bound, done, accounts_store accounts balanced same⟩

theorem retireJournal_quiet (accounts : Accounts calls (dropped ++ task.cells) store queue none)
    (id : CellId) : .unreferenced id ∉ Engine.retireJournal store task ∧
      .missing id ∉ Engine.retireJournal store task := by
  have quiet := Store.releaseJournal_nil (in_hand accounts)
  simp [Engine.retireJournal, quiet, Store.collectJournal]

/-! ### One step -/

/-- Failures that do not come from a lost cell: a dispatch never fails, no
reference dangles, and no call is unsound. -/
def Failure.Harmless : Failure → Prop
  | .error reported =>
    (∀ task fault, reported ≠ .dispatch task fault) ∧
      ∀ id, reported.fault? ≠ some (.danglingReference id)
  | .unsoundCall => False

namespace Engine

variable {engine : Engine σ}

/-- The books of an engine. -/
abbrev Kept (calls : Nat) (dropped : List CellId) (engine : Engine σ) : Prop :=
  Accounts calls dropped engine.store engine.queue engine.frame

/-- An outcome with kept books, and with a harmless failure if it has one. -/
def Sound (calls : Nat) (dropped : List CellId) (outcome : Outcome σ) : Prop :=
  outcome.2.Kept calls dropped ∧ ∀ failure, outcome.1 = .error failure → failure.Harmless

theorem sound_progress (engine : Engine σ) {step : Step} (kept : engine.Kept calls dropped) :
    Sound calls dropped (engine.progress step) :=
  ⟨kept, fun failure failed => by cases failed⟩

theorem sound_fail {error : Error} (kept : engine.Kept calls dropped)
    (harmless : (Failure.error error).Harmless) : Sound calls dropped (engine.fail error) :=
  ⟨kept, fun failure failed => by cases failed; exact harmless⟩

/-- The running function executes a command or ends. -/
theorem advance_sound (engine : Engine σ) (running : engine.frame = some frame)
    (kept : engine.Kept calls dropped) (few : calls < UInt32.size) :
    Sound (calls + 1) (dropped ++ engine.advanceDrops frame) (engine.advance frame) := by
  have books : Accounts calls dropped engine.store engine.queue (some frame) := running ▸ kept
  unfold advance advanceDrops
  cases engine.program.get? frame.label with
  | none =>
    have later : engine.Kept (calls + 1) (dropped ++ []) := by
      simpa using accounts_mono kept
    exact sound_fail later (by simp [Failure.Harmless, Error.fault?])
  | some function =>
    dsimp only
    cases function.commands[frame.position.toNat]? with
    | none =>
      exact sound_progress ({ engine with frame := none }.retire frame.task)
        (accounts_mono (accounts_retire (accounts_end books)))
    | some command =>
      have safe := Machine.execute_safe (show (engine.machine frame).Kept calls dropped from books)
        few engine.policy command
      dsimp only
      cases executed : (engine.machine frame).execute engine.policy command with
      | ok after =>
        rw [executed] at safe
        refine sound_progress (engine.withMachine { after with
          frame := { after.frame with position := frame.position + 1 } })
          ⟨safe.balanced, safe.room, safe.ids, ?_⟩
        rintro next ⟨⟩
        have held := safe.held after.frame rfl
        exact ⟨held.live, held.sound, held.short⟩
      | error stopped =>
        obtain ⟨stop, left⟩ := stopped
        rw [executed] at safe
        cases stop with
        | unsoundCall => exact safe.elim
        | fault fault =>
          obtain ⟨after, harmless⟩ := safe
          have unaffected : frame.commandDrops command = [] := by
            cases command with
            | descCall => cases executed
            | _ => rfl
          rw [unaffected, List.append_nil]
          exact sound_fail after (by simpa [Failure.Harmless, Error.fault?] using harmless)

private theorem settle_sound {results : List Value} (idle : engine.frame = none)
    (inHand : Accounts calls (dropped ++ task.cells) engine.store engine.queue none) :
    Sound (calls + 1) (dropped ++ task.forfeit (engine.settle task results).1)
      (engine.settle task results) := by
  unfold settle
  by_cases few : results.length < task.outputs.length
  · rw [if_pos few]
    refine sound_fail ?_ (by simp [Failure.Harmless, Error.fault?])
    rw [Kept, idle]
    exact accounts_mono inHand
  · rw [if_neg few]
    obtain ⟨bound, done, settled⟩ := accounts_bindOutputs results inHand
    rw [done]
    have retired := accounts_mono (accounts_retire settled)
    rw [← idle] at retired
    refine sound_progress ({ engine with store := bound }.retire task) ?_
    simpa [Task.forfeit, progress, retire] using retired

/-- A primitive on a task in hand succeeds and retires it, or fails and drops
it. Its inputs are bound, so they can be read under either policy. -/
theorem invoke_sound {primitives : Primitives σ} {key : String} (idle : engine.frame = none)
    (inHand : Accounts calls (dropped ++ task.cells) engine.store engine.queue none)
    (ready : task.isReady engine.store = .ok true) :
    Sound (calls + 1) (dropped ++ task.forfeit (engine.invoke primitives key task).1)
      (engine.invoke primitives key task) := by
  obtain ⟨values, read⟩ := Store.readAll_bound (Store.allBound_iff.mp ready) engine.policy
  unfold invoke
  rw [read]
  dsimp only
  cases reply : primitives.invoke engine.host key values with
  | mk answer host =>
    cases answer with
    | error message =>
      refine sound_fail ?_ (by simp [Failure.Harmless, Error.fault?])
      rw [Kept, show ({ engine with host := host } : Engine σ).frame = none from idle]
      exact accounts_mono inHand
    | ok results => exact settle_sound idle inHand

/-- A task that has left the queue runs, or is lost with its cells. -/
theorem dispatch_sound (engine : Engine σ) {primitives : Primitives σ} (idle : engine.frame = none)
    (inHand : Accounts calls (dropped ++ task.cells) engine.store engine.queue none)
    (ready : task.isReady engine.store = .ok true) (few : calls < UInt32.size) :
    Sound (calls + 1) (dropped ++ engine.dispatchDrops primitives task)
      (engine.dispatch primitives task) := by
  unfold dispatch dispatchDrops
  cases Target.resolve (primitives.provides engine.host) engine.program task.label with
  | none =>
    refine sound_fail ?_ (by simp [Failure.Harmless, Error.fault?])
    rw [Kept, idle]
    exact accounts_mono inHand
  | some target =>
    cases target with
    | primitive key => exact invoke_sound idle inHand ready
    | function =>
      exact advance_sound { engine with frame := some (.start task) } rfl
        (accounts_start inHand) few

theorem queued_live {queued : Task} {id : CellId} (kept : engine.Kept calls dropped)
    (member : queued ∈ engine.queue.tasks) (listed : id ∈ queued.cells) :
    engine.store.contains id = true :=
  queue_live kept (List.mem_flatMap.mpr ⟨queued, member, listed⟩)

/-- The task that the scheduler finds is ready, and taking it leaves it in hand. -/
theorem take_ready {skipped later : List Task} (idle : engine.frame = none)
    (kept : engine.Kept calls dropped)
    (chosen : engine.queue.select engine.store = .ready skipped task later) :
    Accounts calls (dropped ++ task.cells) engine.store ⟨skipped ++ later⟩ none ∧
      task.isReady engine.store = .ok true := by
  obtain ⟨shape, ready⟩ := Selection.ready_eq chosen
  have queue : engine.queue = ⟨skipped ++ task :: later⟩ := congrArg Queue.mk shape
  rw [Kept, queue, idle] at kept
  exact ⟨accounts_take kept, ready⟩

private theorem schedule_sound {primitives : Primitives σ} (idle : engine.frame = none)
    (kept : engine.Kept calls dropped) (few : calls < UInt32.size) :
    Sound (calls + 1) (dropped ++ engine.scheduleDrops primitives)
      (engine.schedule primitives) := by
  have same : engine.Kept (calls + 1) (dropped ++ []) := by simpa using accounts_mono kept
  unfold schedule scheduleDrops
  by_cases empty : engine.queue.isEmpty = true
  · have nothing : engine.queue.select engine.store = .stalled [] := by
      rw [Queue.select, List.isEmpty_iff.mp empty, Selection.ofTasks]
    rw [if_pos empty, nothing]
    exact ⟨same, fun failure failed => by cases failed⟩
  · rw [if_neg empty]
    cases chosen : engine.queue.select engine.store with
    | stalled skipped => exact ⟨same, fun failure failed => by cases failed⟩
    | undecided skipped task fault =>
      refine absurd chosen (Selection.not_undecided fun queued member id input => ?_)
      exact queued_live kept member (List.mem_append.mpr (.inl input))
    | ready skipped task later =>
      obtain ⟨inHand, ready⟩ := take_ready idle kept chosen
      exact dispatch_sound { engine with queue := ⟨skipped ++ later⟩ } idle inHand ready few

/-- Every step keeps the books and fails harmlessly if it fails. -/
theorem step_sound {primitives : Primitives σ} (kept : engine.Kept calls dropped)
    (few : calls < UInt32.size) :
    Sound (calls + 1) (dropped ++ engine.stepDrops primitives) (engine.step primitives) := by
  unfold step stepDrops
  cases running : engine.frame with
  | some frame => exact advance_sound engine running kept few
  | none => exact schedule_sound running kept few

theorem new_kept (program : Program) (host : σ) : (ofProgram program host).Kept 0 [] :=
  ⟨Store.balanced_empty, Nat.le_refl _, fun id live => (by cases live),
    fun frame member => (by cases member)⟩

theorem seed_kept (name : String) (kept : engine.Kept calls dropped) :
    (engine.seed name).Kept calls dropped := by
  refine accounts_regroup kept ?_ kept.held
  rw [show (engine.seed name).queue = engine.queue.push (.named name) from rfl, Queue.roles_push,
    show (Task.named name).cells = [] from rfl, List.append_nil]
  exact .refl _

/-- The books are kept after every history. -/
theorem history_kept (primitives : Primitives σ) (program : Program) (host : σ)
    (requests : List Request) (few : requests.count .step ≤ UInt32.size) :
    ((ofProgram program host).after primitives requests).Kept (requests.count .step)
      ((ofProgram program host).dropped primitives requests) := by
  have kept := holds_after primitives UInt32.size Kept (fun name kept => seed_kept name kept)
    (fun policy kept => kept) (fun within kept => (step_sound kept within).1)
    (new_kept program host) requests (by omega)
  simpa using kept

end Engine

end Dataflow
