import Dataflow.Primitives.Scripted
import Dataflow.Primitives.Standard
import Dataflow.Proofs.EngineHistory
import Dataflow.Proofs.SnapshotRoundTrip

/-! An engine that was stopped, written to a file and resumed goes on as if it had
never been stopped. A snapshot leaves out the program and the state of the
primitives. The program is the same, so what has to be shown is that two engines
that differ in the state of the primitives only stay that way, as long as their
primitives answer alike. -/
namespace Dataflow

/-- Primitives whose names are fixed and whose replies depend on nothing but the
name and the values. What they do to their own state is left open. -/
structure Primitives.Answers (primitives : Primitives σ) (provided : String → Bool)
    (reply : String → List Value → Except String (List Value)) : Prop where
  provides : ∀ state, primitives.provides state = provided
  replies : ∀ state name values, (primitives.invoke state name values).1 = reply name values

/-- Primitives that answer alike in related states and keep them related. -/
structure Primitives.Alike (primitives : Primitives σ) (others : Primitives τ)
    (Related : σ → τ → Prop) : Prop where
  provides : ∀ {state other}, Related state other →
    primitives.provides state = others.provides other
  replies : ∀ {state other}, Related state other → ∀ name values,
    (primitives.invoke state name values).1 = (others.invoke other name values).1
  related : ∀ {state other}, Related state other → ∀ name values,
    Related (primitives.invoke state name values).2 (others.invoke other name values).2

theorem Primitives.alike_of_answers {primitives : Primitives σ} {others : Primitives τ}
    {provided : String → Bool} {reply : String → List Value → Except String (List Value)}
    (answers : primitives.Answers provided reply) (same : others.Answers provided reply) :
    primitives.Alike others fun _ _ => True where
  provides _ := by rw [answers.provides, same.provides]
  replies _ name values := by rw [answers.replies, same.replies]
  related _ _ _ := trivial

/-- A console that holds what `past` and another one hold, none of them ever full. -/
def Console.Continues (past : String) (console other : Console) : Prop :=
  console.text = past ++ other.text ∧ console.capacity = none ∧ other.capacity = none

private theorem Standard.put_roomy {console : Console} (roomy : console.capacity = none)
    (value : Value) :
    put console value =
      .ok { console with text := console.text ++ Decimal.valueText value ++ "\n" } := by
  simp [put, Console.isFull, roomy]

private theorem Standard.call_continues {past : String} {console other : Console}
    (continues : console.Continues past other) (name : String) (values : List Value) :
    (∃ refusal, call name values console = .error refusal ∧
      call name values other = .error refusal) ∨
    (∃ results next follower, call name values console = .ok (results, next) ∧
      call name values other = .ok (results, follower) ∧ next.Continues past follower) := by
  unfold call
  cases Operation.ofName? name with
  | none => exact .inl ⟨_, rfl, rfl⟩
  | some operation =>
    dsimp only
    unfold perform
    split
    case h_1 a b =>
      cases add a b with
      | error refusal => exact .inl ⟨refusal, rfl, rfl⟩
      | ok sum => exact .inr ⟨[sum], console, other, rfl, rfl, continues⟩
    case h_2 a b =>
      cases mul a b with
      | error refusal => exact .inl ⟨refusal, rfl, rfl⟩
      | ok product => exact .inr ⟨[product], console, other, rfl, rfl, continues⟩
    case h_3 value =>
      obtain ⟨text, roomy, ample⟩ := continues
      rw [put_roomy roomy, put_roomy ample]
      exact .inr ⟨[], _, _, rfl, rfl, by simp [text, String.append_assoc], roomy, ample⟩
    case h_4 => exact .inl ⟨_, rfl, rfl⟩

theorem Primitives.standard_alike (past : String) :
    standard.Alike standard (Console.Continues past) where
  provides _ := rfl
  replies continues name values := by
    unfold standard
    rcases Standard.call_continues continues name values with
      ⟨refusal, first, second⟩ | ⟨results, next, follower, first, second, -⟩
    · simp only [first, second]
    · simp only [first, second]
  related continues name values := by
    unfold standard
    rcases Standard.call_continues continues name values with
      ⟨refusal, first, second⟩ | ⟨results, next, follower, first, second, still⟩
    · simpa only [first, second] using continues
    · simpa only [first, second] using still

namespace Engine

/-- Write a snapshot to a file, read the file, and resume from what it says. -/
def reopen (engine : Engine σ) (program : Program) (fresh : τ) : Except Error (Engine τ) :=
  (Snapshot.ofText engine.snapshot.toText).bind (resume program fresh)

/-- The answer to each request and the state after it, in order. -/
def record (primitives : Primitives σ) :
    Engine σ → List Request → List (Option (Except Failure Step) × Snapshot)
  | _, [] => []
  | engine, request :: rest =>
    let (answer, after) := engine.serve primitives request
    (answer, after.snapshot) :: after.record primitives rest

/-- The same engine with other primitives in another state. -/
def rehost (engine : Engine σ) (host : τ) : Engine τ :=
  ⟨engine.program, host, engine.policy, engine.steps, engine.store, engine.queue, engine.frame⟩

/-- Resuming from the file of an engine gives that engine back, but for the
state of the primitives. -/
theorem reopen_eq {engine : Engine σ} {program : Program} (same : engine.program = program)
    (fresh : τ) : engine.reopen program fresh = .ok (engine.rehost fresh) := by
  subst same
  rw [reopen, Snapshot.ofText_toText]
  simp [Except.bind, resume, snapshot, rehost]

/-- An outcome and one with other primitives, whose states are still related. -/
private def Follows (Related : σ → τ → Prop) (outcome : Outcome σ) (other : Outcome τ) : Prop :=
  ∃ host, Related outcome.2.host host ∧ other = (outcome.1, outcome.2.rehost host)

section

variable {primitives : Primitives σ} {others : Primitives τ} {Related : σ → τ → Prop}

private theorem advance_follows (engine : Engine σ) {host : τ} (related : Related engine.host host)
    (frame : Frame) :
    Follows Related (engine.advance frame) ((engine.rehost host).advance frame) := by
  unfold advance rehost
  dsimp only [machine]
  cases engine.program.get? frame.label with
  | none => exact ⟨host, related, rfl⟩
  | some function =>
    dsimp only
    cases function.commands[frame.position.toNat]? with
    | none => exact ⟨host, related, rfl⟩
    | some command =>
      dsimp only
      cases Machine.execute engine.policy command ⟨frame, engine.store, engine.queue⟩ with
      | ok machine => exact ⟨host, related, rfl⟩
      | error stop =>
        obtain ⟨stop, machine⟩ := stop
        cases stop with
        | fault fault => exact ⟨host, related, rfl⟩
        | unsoundCall => exact ⟨host, related, rfl⟩

private theorem settle_follows (engine : Engine σ) {host : τ} (related : Related engine.host host)
    (task : Task) (results : List Value) :
    Follows Related (engine.settle task results) ((engine.rehost host).settle task results) := by
  unfold settle rehost
  dsimp only
  split
  · exact ⟨host, related, rfl⟩
  · cases engine.store.bindAll (task.outputs.zip results) with
    | ok store => exact ⟨host, related, rfl⟩
    | error stop => exact ⟨host, related, rfl⟩

private theorem invoke_follows (alike : primitives.Alike others Related) (engine : Engine σ)
    {host : τ} (related : Related engine.host host) (key : String) (task : Task) :
    Follows Related (engine.invoke primitives key task)
      ((engine.rehost host).invoke others key task) := by
  unfold invoke
  have same : (engine.rehost host).store.readAll (engine.rehost host).policy task.inputs =
    engine.store.readAll engine.policy task.inputs := rfl
  rw [same]
  cases engine.store.readAll engine.policy task.inputs with
  | error fault => exact ⟨host, related, rfl⟩
  | ok values =>
    -- Both sets of primitives give one reply, and each moves to a state of its own.
    have replies := alike.replies related key values
    have next := alike.related related key values
    have stays : (engine.rehost host).host = host := rfl
    dsimp only
    rw [stays]
    cases first : primitives.invoke engine.host key values with
    | mk reply state =>
      cases second : others.invoke host key values with
      | mk reply' other =>
        rw [first, second] at replies next
        cases replies
        cases reply with
        | error message => exact ⟨other, next, rfl⟩
        | ok results => exact settle_follows { engine with host := state } next task results

private theorem dispatch_follows (alike : primitives.Alike others Related) (engine : Engine σ)
    {host : τ} (related : Related engine.host host) (task : Task) :
    Follows Related (engine.dispatch primitives task)
      ((engine.rehost host).dispatch others task) := by
  unfold dispatch
  have same : Target.resolve (others.provides (engine.rehost host).host)
      (engine.rehost host).program task.label =
      Target.resolve (primitives.provides engine.host) engine.program task.label := by
    rw [alike.provides related]
    rfl
  rw [same]
  cases Target.resolve (primitives.provides engine.host) engine.program task.label with
  | none => exact ⟨host, related, rfl⟩
  | some target =>
    cases target with
    | primitive key => exact invoke_follows alike engine related key task
    | function => exact advance_follows { engine with frame := some (.start task) } related _

private theorem schedule_follows (alike : primitives.Alike others Related) (engine : Engine σ)
    {host : τ} (related : Related engine.host host) :
    Follows Related (engine.schedule primitives) ((engine.rehost host).schedule others) := by
  by_cases empty : engine.queue.isEmpty = true
  · have idle : (engine.rehost host).schedule others = (.ok .done, engine.rehost host) :=
      if_pos empty
    rw [idle, schedule, if_pos empty]
    exact ⟨host, related, rfl⟩
  · have waiting : (engine.rehost host).queue.isEmpty ≠ true := empty
    have same : (engine.rehost host).queue.select (engine.rehost host).store =
      engine.queue.select engine.store := rfl
    rw [schedule, schedule, if_neg empty, if_neg waiting, same]
    cases engine.queue.select engine.store with
    | stalled skipped => exact ⟨host, related, rfl⟩
    | undecided skipped task fault => exact ⟨host, related, rfl⟩
    | ready skipped task later =>
      exact dispatch_follows alike { engine with queue := ⟨skipped ++ later⟩ } related task

/-- One step of two engines that differ in the state of their primitives only
has one answer, and leaves engines that differ so. -/
theorem step_rehost (alike : primitives.Alike others Related) (engine : Engine σ)
    {host : τ} (related : Related engine.host host) :
    ∃ next, Related (engine.step primitives).2.host next ∧
      (engine.rehost host).step others =
        ((engine.step primitives).1, (engine.step primitives).2.rehost next) := by
  cases running : engine.frame with
  | some frame =>
    have moves : engine.step primitives = engine.advance frame := by rw [step, running]
    have follows : (engine.rehost host).step others = (engine.rehost host).advance frame := by
      rw [step, rehost, running]
    rw [moves, follows]
    exact advance_follows engine related frame
  | none =>
    have moves : engine.step primitives = engine.schedule primitives := by rw [step, running]
    have follows : (engine.rehost host).step others = (engine.rehost host).schedule others := by
      rw [step, rehost, running]
    rw [moves, follows]
    exact schedule_follows alike engine related

theorem serve_rehost (alike : primitives.Alike others Related) (engine : Engine σ)
    {host : τ} (related : Related engine.host host) (request : Request) :
    ∃ next, Related (engine.serve primitives request).2.host next ∧
      (engine.rehost host).serve others request =
        ((engine.serve primitives request).1, (engine.serve primitives request).2.rehost next) := by
  cases request with
  | seed name => exact ⟨host, related, rfl⟩
  | setPolicy policy => exact ⟨host, related, rfl⟩
  | step =>
    obtain ⟨next, still, same⟩ := step_rehost alike engine related
    exact ⟨next, still, by rw [serve, same]; rfl⟩

/-- So do all requests of a history, one after another. -/
theorem record_rehost (alike : primitives.Alike others Related) (engine : Engine σ)
    {host : τ} (related : Related engine.host host) (requests : List Request) :
    (engine.rehost host).record others requests = engine.record primitives requests ∧
      Related (engine.after primitives requests).host
        ((engine.rehost host).after others requests).host := by
  induction requests generalizing engine host with
  | nil => exact ⟨rfl, related⟩
  | cons request rest ih =>
    obtain ⟨next, still, same⟩ := serve_rehost alike engine related request
    obtain ⟨later, final⟩ := ih (engine.serve primitives request).2 still
    constructor
    · rw [record, record, same]
      exact congrArg (_ :: ·) later
    · rw [after, after, same]
      exact final

end

private theorem standard_roomy (engine : Engine Console) (roomy : engine.host.capacity = none)
    (requests : List Request) : (engine.after .standard requests).host.capacity = none := by
  -- A console continues itself, with nothing past.
  have self : engine.host.Continues "" engine.host := ⟨by simp, roomy, roomy⟩
  exact (record_rehost (Primitives.standard_alike "") engine self requests).2.2.1

/-- Stopping an engine at any point of any history, writing a snapshot to a file
and resuming from the file changes neither the answers to later requests nor the
states after them, provided the primitives have no memory. With the standard
primitives, what both engines wrote makes up what one would have written. -/
theorem resumed_engine_goes_on (program : Program) (before later : List Request) :
    (∀ {σ τ : Type} (primitives : Primitives σ) (others : Primitives τ)
      (provided : String → Bool) (reply : String → List Value → Except String (List Value)),
      primitives.Answers provided reply → others.Answers provided reply →
      ∀ (host : σ) (fresh : τ),
        let paused := (ofProgram program host).after primitives before
        ∃ resumed, paused.reopen program fresh = .ok resumed ∧
          resumed.snapshot = paused.snapshot ∧
          resumed.record others later = paused.record primitives later) ∧
    (let paused := (ofProgram program Console.unlimited).after .standard before
      ∃ resumed, paused.reopen program Console.unlimited = .ok resumed ∧
        resumed.snapshot = paused.snapshot ∧
        resumed.record .standard later = paused.record .standard later ∧
        paused.host.text ++ (resumed.after .standard later).host.text =
          (paused.after .standard later).host.text) := by
  constructor
  · intro σ τ primitives others provided reply answers same host fresh paused
    have opened := reopen_eq (after_program primitives (ofProgram program host) before) fresh
    have alike := Primitives.alike_of_answers answers same
    exact ⟨paused.rehost fresh, opened, rfl, (record_rehost alike paused trivial later).1⟩
  · intro paused
    have opened := reopen_eq (after_program .standard (ofProgram program Console.unlimited) before)
      Console.unlimited
    have roomy : paused.host.capacity = none :=
      standard_roomy (ofProgram program Console.unlimited) rfl before
    have continues : paused.host.Continues paused.host.text Console.unlimited :=
      ⟨by simp [Console.unlimited], roomy, rfl⟩
    obtain ⟨recorded, text, -⟩ :=
      record_rehost (Primitives.standard_alike paused.host.text) paused continues later
    exact ⟨paused.rehost Console.unlimited, opened, rfl, recorded, text.symm⟩

/-- The function hands a cell to a primitive and ends before that runs. -/
private def pauseDemo : Program :=
  .ofFunctions [⟨"f", [.create, .assign 7, .input, .push "g", .pushFunc]⟩] (by decide)

/-- The engine is stopped within a function. The one that goes on also keeps a
record of all calls, which the first one did not. -/
theorem resumed_engine_goes_on_mid_function :
    let primitives := Primitives.scripted [("g", .echo)]
    let later := List.replicate 6 Request.step
    let paused := (ofProgram pauseDemo ()).after primitives [.seed "f", .step, .step]
    paused.frame.isSome = true ∧
      (paused.record primitives later).map (·.1) = [some (.ok (.command "f" 2)),
        some (.ok (.command "f" 3)), some (.ok (.command "f" 4)), some (.ok (.finished "f")),
        some (.ok (.primitive "g")), some (.ok .done)] ∧
      ∃ resumed, paused.reopen pauseDemo ((), []) = .ok resumed ∧
        resumed.snapshot = paused.snapshot ∧
        resumed.record primitives.recorded later = paused.record primitives later := by
  refine ⟨rfl, rfl, ?_⟩
  let primitives := Primitives.scripted [("g", .echo)]
  exact (resumed_engine_goes_on pauseDemo [.seed "f", .step, .step] (List.replicate 6 .step)).1
    primitives primitives.recorded (primitives.provides ())
    (fun name values => (primitives.invoke () name values).1) ⟨fun _ => rfl, fun _ _ _ => rfl⟩
    ⟨fun _ => rfl, fun _ _ _ => rfl⟩ () ((), [])

end Engine

end Dataflow
