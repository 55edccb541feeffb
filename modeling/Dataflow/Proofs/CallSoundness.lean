import Dataflow.Primitives.Standard
import Dataflow.Proofs.NameProvenance
import Dataflow.Proofs.SnapshotRoundTrip
import Dataflow.Proofs.StepEffects

/-! Steps that crash. A call counts the cells that an enqueued copy of it already refers to,
and enqueueing takes that many from its lists. In an engine that was made from a program the
counts never exceed the lists. A snapshot may say anything, and its frame is taken as it is,
so an engine that goes on from a snapshot can come to a call that is overdrawn. This is the
only way to crash: everything else that is looked up by a place or a number is there. -/
namespace Dataflow.Engine

variable {primitives : Primitives σ} {engine after : Engine σ} {frame : Frame} {task : Task}
  {step : Step} {failure : Failure}

/-- The next command is to enqueue a call that counts more shared cells than it lists. -/
def Overdrawn (engine : Engine σ) : Prop :=
  ∃ frame function name rest, engine.frame = some frame ∧
    engine.program.get? frame.label = some function ∧
    function.commands[frame.position.toNat]? = some .pushFunc ∧
    frame.stack = .literal name :: rest ∧ frame.call.isSound = false

/-- The running frame, if there is one, has a call that counts no more than it lists. -/
def SoundCall (engine : Engine σ) : Prop :=
  ∀ frame, engine.frame = some frame → frame.call.isSound = true

theorem not_overdrawn (sound : engine.SoundCall) : ¬ engine.Overdrawn := by
  rintro ⟨frame, function, name, rest, running, -, -, -, unsound⟩
  cases (sound frame running).symm.trans unsound

/-! ### The step that crashes -/

private theorem breaks_overdrawn (running : engine.frame = some frame)
    (breaks : Breaks engine frame .unsoundCall after) : engine.Overdrawn := by
  generalize crash : Failure.unsoundCall = failure at breaks
  cases breaks with
  | unknown absent => cases crash
  | @stop function command stop left found here stopped =>
    cases Machine.execute_stops stopped with
    | fault spares => cases crash
    | dangling stack raised => cases crash
    | unsound stack unsound => exact ⟨frame, function, _, _, running, found, here, stack, unsound⟩

/-- A step crashes exactly if the call that it is to enqueue is overdrawn. -/
theorem step_crashes_iff :
    (engine.step primitives).1 = .error .unsoundCall ↔ engine.Overdrawn := by
  constructor
  · intro answer
    obtain ⟨after, stepped⟩ : ∃ after, engine.step primitives = (.error .unsoundCall, after) :=
      ⟨_, Prod.ext answer rfl⟩
    cases step_error_iff.mp stepped with
    | advance running breaks => exact breaks_overdrawn running breaks
    | dispatch idle chosen refuses =>
      cases refuses with
      | function target breaks =>
        -- a function that starts has an empty stack, so it enqueues nothing at once
        obtain ⟨frame, function, name, rest, started, -, -, stack, -⟩ := breaks_overdrawn rfl breaks
        cases started
        cases stack
  · rintro ⟨frame, function, name, rest, running, found, here, stack, unsound⟩
    have stopped : (engine.machine frame).execute engine.policy .pushFunc =
      .error (.unsoundCall, (engine.machine frame).withStack rest) :=
        Machine.execute_unsound stack unsound
    rw [step_error_iff.mpr (.advance running (.stop found here stopped))]
    rfl

/-! ### Calls stay sound -/

private theorem advances_sound_call (sound : engine.SoundCall) (running : engine.frame = some frame)
    (advances : Advances engine frame step after) : after.SoundCall := by
  cases advances with
  | finish found ended => exact fun next none => by cases none
  | command found here rule =>
    rintro next ⟨⟩
    exact (Machine.executes_carries rule).sound (sound frame running)

private theorem breaks_sound_call (sound : engine.SoundCall) (running : engine.frame = some frame)
    (breaks : Breaks engine frame failure after) : after.SoundCall := by
  cases breaks with
  | unknown absent => exact sound
  | stop found here stopped =>
    obtain ⟨-, stack, -, left⟩ := Machine.stops_frame (Machine.execute_stops stopped)
    rintro next ⟨⟩
    rw [left]
    exact sound frame running

private theorem start_sound_call (engine : Engine σ) (task : Task) :
    SoundCall { engine with frame := some (.start task) } := by
  rintro frame ⟨⟩
  rfl

theorem step_sound_call (primitives : Primitives σ) (sound : engine.SoundCall) :
    (engine.step primitives).2.SoundCall := by
  cases stepped : engine.step primitives with
  | mk answer after =>
    cases answer with
    | ok step =>
      cases step_ok_iff.mp stepped with
      | advance running advances => exact advances_sound_call sound running advances
      | halt idle nothing => exact sound
      | dispatch idle chosen dispatches =>
        cases dispatches with
        | primitive target read replied enough bound => exact sound
        | function target advances =>
          exact advances_sound_call (start_sound_call _ _) rfl advances
    | error failure =>
      cases step_error_iff.mp stepped with
      | advance running breaks => exact breaks_sound_call sound running breaks
      | undecided idle chosen => exact sound
      | dispatch idle chosen refuses =>
        cases refuses with
        | unknown target => exact sound
        | primitive target balks => cases balks <;> exact sound
        | function target breaks => exact breaks_sound_call (start_sound_call _ _) rfl breaks

theorem after_sound_call (primitives : Primitives σ) (requests : List Request)
    (sound : engine.SoundCall) : (engine.after primitives requests).SoundCall := by
  induction requests generalizing engine with
  | nil => exact sound
  | cons request rest ih =>
    apply ih
    cases request with
    | seed name => exact sound
    | setPolicy policy => exact sound
    | step => exact step_sound_call primitives sound

/-- An engine that was made from a program never crashes. -/
theorem history_sound_call (primitives : Primitives σ) (program : Program) (host : σ)
    (requests : List Request) :
    ((ofProgram program host).after primitives requests).SoundCall :=
  after_sound_call primitives requests fun frame running => by cases running

/-- A run that ends has not crashed. -/
theorem run_sound_call {fuel : Nat} {reply : Except Failure RunOutcome} {final : Engine σ}
    (sound : engine.SoundCall) (ran : engine.run primitives fuel = some (reply, final)) :
    reply ≠ .error .unsoundCall := by
  induction fuel generalizing engine with
  | zero => cases ran
  | succ fuel ih =>
    have kept := step_sound_call primitives sound
    cases stepped : engine.step primitives with
    | mk answer after =>
      rw [stepped] at kept
      rw [run, stepped] at ran
      cases answer with
      | error failure =>
        cases ran
        rintro ⟨⟩
        apply not_overdrawn sound
        rw [← step_crashes_iff, stepped]
      | ok step =>
        cases step with
        | done =>
          cases ran
          simp
        | stalled pending =>
          cases ran
          simp
        | _ => exact ih kept ran

/-! ### Other look-ups -/

/-- A task that the scheduler takes is where it is taken from. -/
theorem taken_removable {place : Nat} (taken : engine.taken? .step = some place) :
    ∃ task rest, engine.queue.remove? place = some (task, ⟨rest⟩) ∧
      rest = engine.remaining .step := by
  obtain ⟨-, -, skipped, task, later, chosen, rfl⟩ := taken_cases taken
  have here : engine.queue.get? skipped.length = some task := by
    simp [Queue.get?, (Selection.ready_eq chosen).1]
  refine ⟨task, _, by rw [Queue.remove?, here]; rfl, ?_⟩
  rw [remaining, taken]

/-- A standard primitive refuses exactly the wrong number of values, so that each value that
it asks for is there. -/
theorem perform_arity_iff (operation : Standard.Operation) (values : List Value)
    (console : Console) :
    Standard.perform operation values console = .error (.arity operation values.length) ↔
      values.length ≠ operation.arity := by
  unfold Standard.perform
  split
  · rename_i a b
    unfold Standard.add
    split <;> simp [Except.map, Standard.Operation.arity]
  · rename_i a b
    unfold Standard.mul
    split <;> simp [Except.map, Standard.Operation.arity]
  · rename_i value
    unfold Standard.put
    split <;> simp [Except.map, Standard.Operation.arity]
  · rename_i notAdd notMul notPut
    refine ⟨fun _ fits => ?_, fun _ => rfl⟩
    match operation, values, fits with
    | .add, [a, b], _ => exact notAdd a b rfl rfl
    | .mul, [a, b], _ => exact notMul a b rfl rfl
    | .putstring, [value], _ => exact notPut value rfl rfl

/-- A text that is accepted describes a snapshot, and the engine has its frame as it is. -/
theorem accepted_frame {program : Program} {text : String} {host : σ}
    (accepted : (Snapshot.ofText text).bind (resume program host) = .ok engine) :
    ∃ snapshot, Snapshot.ofText text = .ok snapshot ∧ engine.frame = snapshot.frame ∧
      engine.program = program := by
  cases read : Snapshot.ofText text with
  | error error => simp [read, Except.bind] at accepted
  | ok snapshot =>
    simp only [read, Except.bind, resume] at accepted
    split at accepted
    · cases accepted
    · split at accepted
      · cases accepted
      · cases accepted
        exact ⟨snapshot, rfl, rfl, rfl⟩

/-- When an engine that goes on from a snapshot crashes. Whatever text was read as a snapshot
and accepted for the program, a step crashes exactly if the call that it is to enqueue is
overdrawn. That never comes about if the frame of the snapshot has a sound call. Nothing else
is looked up where it is not: the scheduler takes a task from where there is one, a name that
the program contains has a body, and a primitive is given as many values as it takes. -/
theorem resumed_engine_crashes_iff (program : Program) (text : String) (host : σ)
    (engine : Engine σ)
    (accepted : (Snapshot.ofText text).bind (resume program host) = .ok engine)
    (primitives : Primitives σ) (requests : List Request) :
    let reached := engine.after primitives requests
    ((reached.step primitives).1 = .error .unsoundCall ↔ reached.Overdrawn) ∧
    (∃ snapshot, Snapshot.ofText text = .ok snapshot ∧
      ((∀ frame, snapshot.frame = some frame → frame.call.isSound = true) →
        ¬ reached.Overdrawn)) ∧
    (∀ place, reached.taken? .step = some place →
      ∃ task rest, reached.queue.remove? place = some (task, rest)) ∧
    (∀ name, reached.program.contains name = true →
      ∃ function ∈ program.functions, reached.program.get? name = some function) ∧
    ∀ operation values console,
      Standard.perform operation values console = .error (.arity operation values.length) ↔
        values.length ≠ operation.arity := by
  intro reached
  obtain ⟨snapshot, read, frame, same⟩ := accepted_frame accepted
  have kept : reached.program = program := (after_program primitives engine requests).trans same
  refine ⟨step_crashes_iff, ⟨snapshot, read, fun sound => ?_⟩, fun place taken => ?_,
    fun name held => ?_, perform_arity_iff⟩
  · apply not_overdrawn
    apply after_sound_call
    rw [SoundCall, frame]
    exact sound
  · obtain ⟨task, rest, removed, -⟩ := taken_removable taken
    exact ⟨task, _, removed⟩
  · rw [kept] at held ⊢
    obtain ⟨function, member, named⟩ := List.mem_map.mp (Program.contains_iff.mp held)
    exact ⟨function, member, Program.get?_eq_some_iff.mpr ⟨member, named⟩⟩

/-- One function, whose body enqueues a call under the name on top of its stack. -/
private def crashDemo : Program := .ofFunctions [⟨"f", [.pushFunc]⟩] (by decide)

/-- A snapshot within that function. The call lists no cell and counts as many as given. -/
private def crashDemoSnapshot (counted : UInt64) : Snapshot :=
  ⟨Snapshot.currentVersion, crashDemo.fingerprint, .lenient, 0, .empty, .empty,
    some ⟨.named "f", 0, [.literal "g"], ⟨.blank, counted, 0⟩⟩⟩

private def crashDemoEngine (counted : UInt64) : Engine Console :=
  ⟨crashDemo, .unlimited, .lenient, 0, .empty, .empty, (crashDemoSnapshot counted).frame⟩

private theorem crashDemo_accepted (counted : UInt64) :
    (Snapshot.ofText (crashDemoSnapshot counted).toText).bind (resume crashDemo Console.unlimited) =
      .ok (crashDemoEngine counted) := by
  rw [Snapshot.ofText_toText]
  simp [Except.bind, resume, crashDemoSnapshot, crashDemoEngine]

/-- With no shared cells the snapshot is one that a run could have produced. -/
theorem resumed_engine_crashes_iff_sound_snapshot :
    (Snapshot.ofText (crashDemoSnapshot 0).toText).bind (resume crashDemo Console.unlimited) =
      .ok (crashDemoEngine 0) ∧
    ∀ requests,
      (((crashDemoEngine 0).after .standard requests).step .standard).1 ≠ .error .unsoundCall := by
  refine ⟨crashDemo_accepted 0, fun requests crash => ?_⟩
  obtain ⟨crashes, ⟨snapshot, read, never⟩, -⟩ := resumed_engine_crashes_iff crashDemo _ _ _
    (crashDemo_accepted 0) .standard requests
  rw [Snapshot.ofText_toText] at read
  cases read
  refine never ?_ (crashes.mp crash)
  rintro frame ⟨⟩
  rfl

/-- A text that is read as a snapshot and accepted for its program, after which the first step
crashes: the call counts a shared cell and lists none. -/
theorem accepted_snapshot_crashes :
    let text := (crashDemoSnapshot 1).toText
    Source.parse "start f\n  push_func\nfinish\n" = .ok crashDemo ∧
      Snapshot.ofText text = .ok (crashDemoSnapshot 1) ∧
      (Snapshot.ofText text).bind (resume crashDemo Console.unlimited) =
        .ok (crashDemoEngine 1) ∧
      ((crashDemoEngine 1).step .standard).1 = .error .unsoundCall :=
  ⟨Source.parse_of_functions (by rfl), Snapshot.ofText_toText _, crashDemo_accepted 1, rfl⟩

end Dataflow.Engine
