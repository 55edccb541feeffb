import Dataflow.Primitives.Scripted
import Dataflow.Proofs.CheckpointFidelity
import Dataflow.Proofs.RenamedCommands
import Dataflow.Proofs.StepRules

/-! Entry points do not disturb each other. If an engine is given two entry points, each
of its steps is a step of one of two engines that were given one entry point each, and
leaves the other one as it is. The three engines agree up to the ids of cells: the
common store is the union of the other two, and the common queue is merged from the
other two. The common engine takes the task that comes first in its queue, so the order
in which the two others move is found on the way and not given in advance. -/
namespace Dataflow

/-- How a run ends that left a number of tasks pending. -/
def RunOutcome.ofPending (steps : UInt64) (pending : Nat) : RunOutcome :=
  if pending = 0 then .completed steps else .stalled steps pending

theorem RunOutcome.ofPending_inj {steps steps' : UInt64} {pending pending' : Nat} :
    ofPending steps pending = ofPending steps' pending' ↔ steps = steps' ∧ pending = pending' := by
  unfold ofPending
  by_cases ended : pending = 0 <;> by_cases ended' : pending' = 0 <;> simp [ended, ended', eq_comm]

/-- Whatever the state of the primitives, the call is recorded and the reply is given. -/
theorem Primitives.Answers.recorded_invoke {primitives : Primitives σ} {provided : String → Bool}
    {reply : String → List Value → Except String (List Value)}
    (answers : primitives.Answers provided reply) (state : σ × List (String × List Value))
    (name : String) (values : List Value) :
    ∃ next, primitives.recorded.invoke state name values =
      (reply name values, next, state.2 ++ [(name, values)]) :=
  ⟨(primitives.invoke state.1 name values).2, by
    rw [← answers.replies state.1]
    rfl⟩

namespace Engine

/-! ### Runs -/

/-- Nothing is running and nothing can be run. -/
def Halted (engine : Engine σ) : Prop :=
  engine.frame = none ∧ ∃ skipped, engine.queue.select engine.store = .stalled skipped

/-- A number of steps leads to an engine that has halted. -/
inductive Runs (primitives : Primitives σ) : Nat → Engine σ → Engine σ → Prop where
  | halt {engine : Engine σ} (halted : engine.Halted) : Runs primitives 0 engine engine
  | step {count : Nat} {engine middle final : Engine σ} {step : Step}
      (steps : Steps primitives engine step middle) (progress : step.madeProgress = true)
      (rest : Runs primitives count middle final) : Runs primitives (count + 1) engine final

section

variable {primitives : Primitives σ} {engine after final : Engine σ} {step : Step}
  {fuel count : Nat}

theorem steps_progress (steps : Steps primitives engine step after)
    (progress : step.madeProgress = true) :
    ¬ engine.Halted ∧ after.steps = engine.steps + 1 := by
  cases steps with
  | advance running advances =>
    constructor
    · rintro ⟨idle, -⟩
      cases running.symm.trans idle
    · cases advances <;> rfl
  | dispatch idle chosen dispatches =>
    constructor
    · rintro ⟨-, skipped, nothing⟩
      cases chosen.symm.trans nothing
    · cases dispatches with
      | primitive target read replied enough bound => rfl
      | function target advances => cases advances <;> rfl
  | halt idle nothing => split at progress <;> cases progress

private theorem next_count (steps : UInt64) (count : Nat) :
    steps + 1 + .ofNat count = steps + .ofNat (count + 1) := by
  rw [UInt64.ofNat_add, UInt64.add_comm (.ofNat count), UInt64.add_assoc]
  rfl

private theorem run_halted (halted : engine.Halted) :
    engine.run primitives (fuel + 1) =
      some (.ok (.ofPending engine.steps engine.queue.size), engine) := by
  obtain ⟨idle, skipped, nothing⟩ := halted
  rw [run, step_ok_iff.mpr (.halt idle nothing)]
  by_cases empty : engine.queue.tasks = []
  · simp [Queue.isEmpty, Queue.size, empty, RunOutcome.ofPending]
  · simp [Queue.isEmpty, Queue.size, empty, RunOutcome.ofPending]

/-- A run with more fuel than steps gives the final engine. -/
theorem run_of_runs (runs : Runs primitives count engine final) (enough : count < fuel) :
    engine.run primitives fuel =
      some (.ok (.ofPending (engine.steps + .ofNat count) final.queue.size), final) := by
  induction runs generalizing fuel with
  | halt halted =>
    obtain ⟨spare, rfl⟩ := Nat.exists_eq_add_of_lt enough
    rw [Nat.zero_add, run_halted halted]
    simp
  | step steps progress rest ih =>
    obtain ⟨spare, rfl⟩ := Nat.exists_eq_add_of_lt enough
    rw [run_progress steps progress, ih (by omega), (steps_progress steps progress).2,
      next_count]

/-- A run that ends without failure is a number of steps to an engine that has halted. -/
theorem runs_of_run {outcome : RunOutcome}
    (ran : engine.run primitives fuel = some (.ok outcome, final)) :
    ∃ count < fuel, Runs primitives count engine final ∧
      outcome = .ofPending (engine.steps + .ofNat count) final.queue.size := by
  induction fuel generalizing engine with
  | zero => cases ran
  | succ fuel ih =>
    cases stepped : engine.step primitives with
    | mk answer after =>
      cases answer with
      | error failure => simp [run, stepped] at ran
      | ok step =>
        have steps := step_ok_iff.mp stepped
        cases progress : step.madeProgress with
        | true =>
          rw [run_progress steps progress] at ran
          obtain ⟨count, within, runs, same⟩ := ih ran
          refine ⟨count + 1, by omega, .step steps progress runs, ?_⟩
          rw [same, (steps_progress steps progress).2, next_count]
        | false =>
          have answer : (engine.step primitives).1 = .ok step := by rw [stepped]
          obtain ⟨idle, nothing, -, -⟩ := halted_step answer progress
          rw [run_halted ⟨idle, nothing⟩] at ran
          cases ran
          exact ⟨0, by omega, .halt ⟨idle, nothing⟩, by simp⟩

/-- A run from the start that makes exactly the steps it has fuel for. -/
theorem runs_of_exact_run {pending : Nat} (few : count < UInt32.size) (start : engine.steps = 0)
    (ran : engine.run primitives (count + 1) =
      some (.ok (.ofPending (.ofNat count) pending), final)) :
    Runs primitives count engine final ∧ pending = final.queue.size := by
  obtain ⟨taken, within, runs, outcome⟩ := runs_of_run ran
  obtain ⟨same, rfl⟩ := RunOutcome.ofPending_inj.mp outcome
  have room : count < UInt64.size := Nat.lt_trans few (by decide)
  have equal : count = taken := by
    rw [start, UInt64.zero_add] at same
    have words := congrArg UInt64.toNat same
    rwa [UInt64.toNat_ofNat_of_lt' room, UInt64.toNat_ofNat_of_lt' (by omega)] at words
  exact ⟨equal ▸ runs, rfl⟩

end

/-! ### Three engines -/

/-- An engine whose books are kept and whose store has no garbage while it is idle. -/
structure Orderly (calls : Nat) (engine : Engine σ) : Prop where
  kept : ∃ dropped, engine.Kept calls dropped
  tidy : engine.Tidy

theorem steps_orderly {primitives : Primitives σ} {engine after : Engine σ} {step : Step}
    {calls : Nat} (orderly : engine.Orderly calls) (few : calls < UInt32.size)
    (steps : Steps primitives engine step after) : after.Orderly (calls + 1) := by
  obtain ⟨⟨dropped, kept⟩, tidy⟩ := orderly
  have stepped := step_ok_iff.mpr steps
  have books : (engine.step primitives).2.Kept _ _ := (step_sound kept few).1
  have swept := step_tidy primitives kept tidy
  rw [stepped] at books swept
  exact ⟨⟨_, books⟩, swept⟩

/-- An engine whose primitives record each call with its values. -/
abbrev Recording (σ : Type) := Engine (σ × List (String × List Value))

/-- Two engines and one that has the cells, the tasks and the recorded calls of both, up
to the ids of cells. At most one of the two is running. -/
structure Beside (f g : CellId → CellId) (left right whole : Recording σ) : Prop where
  programs : left.program = whole.program ∧ right.program = whole.program
  policies : left.policy = whole.policy ∧ right.policy = whole.policy
  steps : whole.steps = left.steps + right.steps
  store : Store.Union f g left.store right.store whole.store
  queue : Interleaving (left.queue.tasks.map (Task.rename f))
    (right.queue.tasks.map (Task.rename g)) whole.queue.tasks
  calls : Interleaving left.host.2 right.host.2 whole.host.2
  frame : (right.frame = none ∧ whole.frame = left.frame.map (Frame.rename f)) ∨
    left.frame = none ∧ whole.frame = right.frame.map (Frame.rename g)

variable {f g : CellId → CellId} {left right whole after : Recording σ} {primitives : Primitives σ}
  {provided : String → Bool} {reply : String → List Value → Except String (List Value)}
  {frame : Frame} {task : Task} {step : Step} {calls total : Nat} {dropped lost : List CellId}

theorem Beside.swap (beside : Beside f g left right whole) : Beside g f right left whole where
  programs := beside.programs.symm
  policies := beside.policies.symm
  steps := beside.steps.trans (UInt64.add_comm _ _)
  store := Store.union_swap beside.store
  queue := beside.queue.swap
  calls := beside.calls.swap
  frame := beside.frame.symm

/-- While the right engine is idle, the frame of the whole is that of the left one. -/
theorem Beside.whole_frame (beside : Beside f g left right whole) (apart : right.frame = none) :
    whole.frame = left.frame.map (Frame.rename f) := by
  rcases beside.frame with ⟨-, same⟩ | ⟨idle, same⟩
  · exact same
  · rw [same, apart, idle]
    rfl

private theorem add_one_left (first second : UInt64) : first + second + 1 = first + 1 + second := by
  rw [UInt64.add_assoc, UInt64.add_assoc, UInt64.add_comm second]

/-- The running function goes on in the same way beside another engine that is idle. -/
theorem advances_beside (beside : Beside f g left right whole) (apart : right.frame = none)
    (running : left.frame = some frame) (kept : left.Kept calls dropped)
    (keptWhole : whole.Kept total lost) (few : calls < UInt32.size) (fewWhole : total < UInt32.size)
    (referenced : right.store.Referenced) (advances : Advances left frame step after) :
    ∃ h changed, Advances whole (frame.rename f) step changed ∧ Beside h g after right changed := by
  have shown : whole.frame = some (frame.rename f) := by
    rw [beside.whole_frame apart, running]
    rfl
  have books := machine_kept running kept
  have booksWhole := machine_kept shown keptWhole
  have counted : whole.steps + 1 = left.steps + 1 + right.steps := by
    rw [beside.steps, add_one_left]
  cases advances with
  | @finish function found ended =>
    rw [beside.programs.1] at found
    have live : ∀ id ∈ frame.task.cells, left.store.contains id = true := fun id member =>
      (books.held frame rfl).live id (by simp [Frame.mentions, member])
    have store := Store.union_retire beside.store live referenced
    exact ⟨f, _, .finish found ended, ⟨beside.programs, beside.policies, counted, store,
      beside.queue, beside.calls, .inl ⟨apart, rfl⟩⟩⟩
  | @command function command machine found here rule =>
    rw [beside.programs.1] at found
    rw [beside.policies.1] at rule
    have joined : (left.machine frame).Beside f g right.store right.queue.tasks
        (whole.machine (frame.rename f)) := ⟨rfl, beside.store, beside.queue⟩
    obtain ⟨h, changed, moved, joined⟩ :=
      Machine.executes_beside joined books booksWhole few fewWhole rule
    refine ⟨h, _, .command found here moved, ⟨beside.programs, beside.policies, counted,
      joined.store, joined.queue, beside.calls, .inl ⟨apart, ?_⟩⟩⟩
    rw [joined.frame]
    rfl

/-- A task is run in the same way beside another engine that is idle. -/
theorem dispatches_beside (answers : primitives.Answers provided reply)
    (beside : Beside f g left right whole) (apart : right.frame = none)
    (inHand : Accounts calls (dropped ++ task.cells) left.store left.queue none)
    (inHandWhole : Accounts total (lost ++ (task.rename f).cells) whole.store whole.queue none)
    (few : calls < UInt32.size) (fewWhole : total < UInt32.size)
    (referenced : right.store.Referenced)
    (dispatches : Dispatches primitives.recorded left task step after) :
    ∃ h changed, Dispatches primitives.recorded whole (task.rename f) step changed ∧
      Beside h g after right changed := by
  have resolved : Target.resolve (primitives.recorded.provides whole.host) whole.program
      (task.rename f).label =
        Target.resolve (primitives.recorded.provides left.host) left.program task.label := by
    simp only [Primitives.recorded, answers.provides, beside.programs.1, Task.label_rename]
  cases dispatches with
  | @primitive key values results host bound target read replied enough done =>
    obtain ⟨next, before⟩ := answers.recorded_invoke left.host key values
    obtain ⟨host, again⟩ := answers.recorded_invoke whole.host key values
    obtain ⟨answer, rfl⟩ := Prod.mk.inj (before.symm.trans replied)
    rw [answer] at again
    rw [beside.policies.1] at read
    have found := Store.embeds_readAll beside.store.ofLeft read
    obtain ⟨changed, moved, union⟩ := Store.union_bindAll beside.store done
    obtain ⟨known, did, books⟩ := accounts_bindOutputs results inHand
    cases done.symm.trans did
    have live : ∀ id ∈ task.cells, bound.contains id = true := fun id member =>
      books.balanced.live id (by simp [member])
    have store := Store.union_retire union live referenced
    have counted : whole.steps + 1 = left.steps + 1 + right.steps := by
      rw [beside.steps, add_one_left]
    have outputs : (task.rename f).outputs.length ≤ results.length := by
      simpa [Task.rename] using enough
    exact ⟨f, _, .primitive (resolved.trans target) found again outputs moved,
      ⟨beside.programs, beside.policies, counted, store, beside.queue, beside.calls.append_left _,
        .inl ⟨apart, beside.whole_frame apart⟩⟩⟩
  | function target advances =>
    let started : Recording σ := { left with frame := some (.start task) }
    let startedWhole : Recording σ := { whole with frame := some (.start (task.rename f)) }
    have running : Beside f g started right startedWhole :=
      ⟨beside.programs, beside.policies, beside.steps, beside.store, beside.queue, beside.calls,
        .inl ⟨apart, rfl⟩⟩
    have kept : started.Kept calls dropped := accounts_start inHand
    have keptWhole : startedWhole.Kept total lost := accounts_start inHandWhole
    obtain ⟨h, changed, moved, beside⟩ :=
      advances_beside running apart rfl kept keptWhole few fewWhole referenced advances
    exact ⟨h, changed, .function (resolved.trans target) moved, beside⟩

/-! ### Taking turns -/

/-- The next step of the whole is one of the left engine: it is the one that is running,
or the scheduler takes the task that it would take for the left engine alone. -/
inductive Turn (f g : CellId → CellId) (left right whole : Recording σ) : Prop where
  | running {frame : Frame} (running : left.frame = some frame) (apart : right.frame = none)
  | ready {task : Task} {skipped later before behind : List Task} (idle : left.frame = none)
      (apart : right.frame = none)
      (chosen : left.queue.select left.store = .ready skipped task later)
      (taken : whole.queue.select whole.store = .ready before (task.rename f) behind)
      (queue : Interleaving ((skipped ++ later).map (Task.rename f))
        (right.queue.tasks.map (Task.rename g)) (before ++ behind))

private theorem select_rename (kept : left.Kept calls dropped)
    (embeds : left.store.Embeds f whole.store) :
    Selection.ofTasks whole.store (left.queue.tasks.map (Task.rename f)) =
      (left.queue.select left.store).map (Task.rename f) := by
  refine Selection.ofTasks_map fun task member => Store.embeds_allBound embeds fun id input => ?_
  exact queued_live kept member (List.mem_append.mpr (.inl input))

private theorem ready_map {selection : Selection} {before behind : List Task}
    (same : selection.map (Task.rename f) = .ready before task behind) :
    ∃ skipped original later, selection = .ready skipped original later ∧
      before = skipped.map (Task.rename f) ∧ task = original.rename f ∧
      behind = later.map (Task.rename f) := by
  cases selection with
  | stalled skipped => cases same
  | undecided skipped original fault => cases same
  | ready skipped original later =>
    cases same
    exact ⟨skipped, original, later, rfl, rfl, rfl, rfl⟩

private theorem stalled_map {selection : Selection} {skipped : List Task}
    (same : selection.map (Task.rename f) = .stalled skipped) :
    ∃ passed, selection = .stalled passed := by
  cases selection with
  | stalled passed => exact ⟨passed, rfl⟩
  | undecided passed original fault => cases same
  | ready passed original later => cases same

/-- It is the turn of one of the two engines, or all three have halted. -/
theorem whose_turn {calls' : Nat} {dropped' : List CellId} (beside : Beside f g left right whole)
    (keptLeft : left.Kept calls dropped) (keptRight : right.Kept calls' dropped')
    (keptWhole : whole.Kept total lost) :
    Turn f g left right whole ∨ Turn g f right left whole ∨
      left.Halted ∧ right.Halted ∧ whole.Halted := by
  cases first : left.frame with
  | some frame =>
    rcases beside.frame with ⟨apart, -⟩ | ⟨idle, -⟩
    · exact .inl (.running first apart)
    · cases first.symm.trans idle
  | none =>
    cases second : right.frame with
    | some frame => exact .inr (.inl (.running second first))
    | none =>
      have idle : whole.frame = none := by
        rw [beside.whole_frame second, first]
        rfl
      have fromLeft := select_rename keptLeft beside.store.ofLeft
      have fromRight := select_rename keptRight beside.store.ofRight
      cases chosen : whole.queue.select whole.store with
      | undecided skipped task fault =>
        refine absurd chosen (Selection.not_undecided fun task member id input => ?_)
        exact queued_live keptWhole member (List.mem_append.mpr (.inl input))
      | stalled skipped =>
        rw [Selection.stalled_part beside.queue chosen] at fromLeft
        rw [Selection.stalled_part beside.queue.swap chosen] at fromRight
        exact .inr (.inr ⟨⟨first, stalled_map fromLeft.symm⟩, ⟨second, stalled_map fromRight.symm⟩,
          ⟨idle, _, chosen⟩⟩)
      | ready skipped task later =>
        rcases Selection.ready_part beside.queue chosen with
          ⟨before, behind, found, queue⟩ | ⟨before, behind, found, queue⟩
        · rw [found] at fromLeft
          obtain ⟨passed, original, rest, own, rfl, rfl, rfl⟩ := ready_map fromLeft.symm
          rw [← List.map_append] at queue
          exact .inl (.ready first second own chosen queue)
        · rw [found] at fromRight
          obtain ⟨passed, original, rest, own, rfl, rfl, rfl⟩ := ready_map fromRight.symm
          rw [← List.map_append] at queue
          exact .inr (.inl (.ready second first own chosen queue.swap))

/-- A step of the engine whose turn it is, is a step of the whole. -/
theorem turn_steps (answers : primitives.Answers provided reply)
    (beside : Beside f g left right whole) (turn : Turn f g left right whole)
    (keptLeft : left.Kept calls dropped) (keptWhole : whole.Kept total lost)
    (few : calls < UInt32.size) (fewWhole : total < UInt32.size) (tidy : right.Tidy)
    (steps : Steps primitives.recorded left step after) :
    ∃ h changed, Steps primitives.recorded whole step changed ∧ Beside h g after right changed := by
  cases turn with
  | running running apart =>
    cases steps with
    | dispatch idle chosen dispatches => cases running.symm.trans idle
    | halt idle nothing => cases running.symm.trans idle
    | advance same advances =>
      cases running.symm.trans same
      obtain ⟨h, changed, moved, joined⟩ := advances_beside beside apart running keptLeft keptWhole
        few fewWhole (tidy apart) advances
      refine ⟨h, changed, .advance ?_ moved, joined⟩
      rw [beside.whole_frame apart, running]
      rfl
  | @ready task skipped later before behind idle apart chosen taken queue =>
    have still : whole.frame = none := by
      rw [beside.whole_frame apart, idle]
      rfl
    cases steps with
    | advance running advances => cases running.symm.trans idle
    | halt same nothing => cases chosen.symm.trans nothing
    | dispatch same found dispatches =>
      cases chosen.symm.trans found
      obtain ⟨inHand, -⟩ := take_ready idle keptLeft chosen
      obtain ⟨inHandWhole, -⟩ := take_ready still keptWhole taken
      have waiting : Beside f g { left with queue := ⟨skipped ++ later⟩ } right
          { whole with queue := ⟨before ++ behind⟩ } :=
        ⟨beside.programs, beside.policies, beside.steps, beside.store, queue, beside.calls,
          beside.frame⟩
      obtain ⟨h, changed, moved, joined⟩ := dispatches_beside answers waiting apart inHand
        inHandWhole few fewWhole (tidy apart) dispatches
      exact ⟨h, changed, .dispatch still taken moved, joined⟩

theorem turn_not_halted (turn : Turn f g left right whole) : ¬ left.Halted := by
  rintro ⟨idle, skipped, nothing⟩
  cases turn with
  | running running apart => cases running.symm.trans idle
  | ready idle apart chosen taken queue => cases chosen.symm.trans nothing

/-- Two runs make up a run of the whole. The induction is on the steps that are left to
both; each step of the whole is taken from the engine whose turn it is. -/
theorem runs_beside (answers : primitives.Answers provided reply) {first second calls calls' : Nat}
    {endLeft endRight : Recording σ} (beside : Beside f g left right whole)
    (few : calls + calls' + (first + second) < UInt32.size) (orderlyLeft : left.Orderly calls)
    (orderlyRight : right.Orderly calls') (orderlyWhole : whole.Orderly (calls + calls'))
    (runsLeft : Runs primitives.recorded first left endLeft)
    (runsRight : Runs primitives.recorded second right endRight) :
    ∃ h k final, Runs primitives.recorded (first + second) whole final ∧
      Beside h k endLeft endRight final := by
  induction count : first + second using Nat.strongRecOn generalizing f g left right whole first
    second calls calls' with
  | ind count ih =>
    subst count
    obtain ⟨dropped, keptLeft⟩ := orderlyLeft.kept
    obtain ⟨dropped', keptRight⟩ := orderlyRight.kept
    obtain ⟨lost, keptWhole⟩ := orderlyWhole.kept
    rcases whose_turn beside keptLeft keptRight keptWhole with turn | turn | ⟨one, other, all⟩
    · cases runsLeft with
      | halt halted => exact absurd halted (turn_not_halted turn)
      | @step rest _ _ _ _ steps progress runs =>
        obtain ⟨h, changed, moved, joined⟩ := turn_steps answers beside turn keptLeft keptWhole
          (by omega) (by omega) orderlyRight.tidy steps
        have orderly := steps_orderly orderlyLeft (by omega) steps
        have common := steps_orderly orderlyWhole (by omega) moved
        rw [Nat.add_right_comm] at common ⊢
        obtain ⟨h, k, final, reached, joined⟩ := ih (rest + second) (by omega) joined (by omega)
          orderly orderlyRight common runs runsRight rfl
        exact ⟨h, k, final, .step moved progress reached, joined⟩
    · cases runsRight with
      | halt halted => exact absurd halted (turn_not_halted turn)
      | @step rest _ _ _ _ steps progress runs =>
        obtain ⟨k, changed, moved, joined⟩ := turn_steps answers beside.swap turn keptRight keptWhole
          (by omega) (by omega) orderlyLeft.tidy steps
        have orderly := steps_orderly orderlyRight (by omega) steps
        have common := steps_orderly orderlyWhole (by omega) moved
        obtain ⟨h, k, final, reached, joined⟩ := ih (first + rest) (by omega) joined.swap (by omega)
          orderlyLeft orderly common runsLeft runs rfl
        exact ⟨h, k, final, .step moved progress reached, joined⟩
    · cases runsLeft with
      | step steps progress rest => exact absurd one (steps_progress steps progress).1
      | halt halted =>
        cases runsRight with
        | step steps progress rest => exact absurd other (steps_progress steps progress).1
        | halt halted => exact ⟨f, g, whole, .halt all, beside⟩

/-- Independent entry points compose. If a fresh engine with one entry point comes to an
end, and so does a fresh engine with another one, then a fresh engine with both comes to
an end as well. It takes the steps of both, leaves the tasks and the cells of both, and
its calls of primitives are the calls of both, each in their order. The two runs have fuel
for no more steps than they count, so the counts are exact. -/
theorem independent_entries_compose (primitives : Primitives σ) (provided : String → Bool)
    (reply : String → List Value → Except String (List Value))
    (answers : primitives.Answers provided reply) (program : Program) (policy : ReadPolicy)
    (host hostA hostB : σ) (a b : String) (stepsA stepsB pendingA pendingB : Nat)
    (endA endB : Recording σ) (few : stepsA + stepsB < UInt32.size) :
    let fresh (host : σ) : Recording σ := (ofProgram program (host, [])).setPolicy policy
    ((fresh hostA).seed a).run primitives.recorded (stepsA + 1) =
      some (.ok (.ofPending (.ofNat stepsA) pendingA), endA) →
    ((fresh hostB).seed b).run primitives.recorded (stepsB + 1) =
      some (.ok (.ofPending (.ofNat stepsB) pendingB), endB) →
    ∃ final,
      (∀ fuel, stepsA + stepsB < fuel →
        (((fresh host).seed a).seed b).run primitives.recorded fuel =
          some (.ok (.ofPending (.ofNat (stepsA + stepsB)) (pendingA + pendingB)), final)) ∧
      final.store.size = endA.store.size + endB.store.size ∧
      Interleaving endA.host.2 endB.host.2 final.host.2 := by
  intro fresh ranA ranB
  have beside : Beside id id ((fresh hostA).seed a) ((fresh hostB).seed b)
      (((fresh host).seed a).seed b) :=
    ⟨⟨rfl, rfl⟩, ⟨rfl, rfl⟩, rfl, Store.union_empty, .left (.right .nil), .nil, .inl ⟨rfl, rfl⟩⟩
  have kept : ∀ host, (fresh host).Kept 0 [] := fun host => new_kept program (fresh host).host
  have orderly : ∀ host name, ((fresh host).seed name).Orderly 0 := fun host name =>
    ⟨⟨[], seed_kept name (kept host)⟩, fun _ => Store.referenced_empty⟩
  have common : (((fresh host).seed a).seed b).Orderly (0 + 0) :=
    ⟨⟨[], seed_kept b (seed_kept a (kept host))⟩, fun _ => Store.referenced_empty⟩
  obtain ⟨runsA, rfl⟩ := runs_of_exact_run (by omega) rfl ranA
  obtain ⟨runsB, rfl⟩ := runs_of_exact_run (by omega) rfl ranB
  obtain ⟨h, k, final, runs, joined⟩ :=
    runs_beside answers beside (by omega) (orderly hostA a) (orderly hostB b) common runsA runsB
  have pending : final.queue.size = endA.queue.size + endB.queue.size := by
    simpa [Queue.size] using joined.queue.length_eq
  have start : (((fresh host).seed a).seed b).steps = 0 := rfl
  refine ⟨final, fun fuel enough => ?_, Store.union_size joined.store, joined.calls⟩
  rw [run_of_runs runs enough, pending, start, UInt64.zero_add]

/-- One function hands a value on to a primitive. The other does so too, and leaves a
second call whose input nobody binds. -/
private def composeDemo : Program :=
  .ofFunctions [⟨"f", [.create, .assign 1, .input, .push "put", .pushFunc]⟩,
    ⟨"g", [.create, .assign 2, .input, .push "put", .pushFunc, .descCall, .create, .input,
      .push "put", .pushFunc]⟩] (by decide)

/-- How a run of one entry point ends, its calls and the number of cells it leaves. -/
private def composeDemoReport (name : String) (fuel : Nat) :
    Option (Except Failure RunOutcome × List (String × List Value) × Nat) :=
  (((ofProgram composeDemo ((), [])).seed name).run
    (Primitives.scripted [("put", .echo)]).recorded fuel).map fun result =>
      (result.1, result.2.host.2, result.2.store.size)

/-- Seven steps that complete and twelve that leave a task pending make up nineteen that
leave a task pending. -/
theorem independent_entries_compose_stalled :
    let primitives := Primitives.scripted [("put", .echo)]
    let fresh : Recording Unit := ofProgram composeDemo ((), [])
    7 + 12 < UInt32.size ∧
    ∃ endA endB final,
      (fresh.seed "f").run primitives.recorded (7 + 1) =
        some (.ok (.ofPending (.ofNat 7) 0), endA) ∧
      (fresh.seed "g").run primitives.recorded (12 + 1) =
        some (.ok (.ofPending (.ofNat 12) 1), endB) ∧
      endA.host.2 = [("put", [1])] ∧ endB.host.2 = [("put", [2])] ∧
      endA.store.size = 0 ∧ endB.store.size = 1 ∧
      ((fresh.seed "f").seed "g").run primitives.recorded 20 =
        some (.ok (.ofPending (.ofNat (7 + 12)) (0 + 1)), final) ∧
      final.store.size = endA.store.size + endB.store.size ∧
      Interleaving endA.host.2 endB.host.2 final.host.2 := by
  have first : composeDemoReport "f" 8 =
      some (.ok (.ofPending (.ofNat 7) 0), [("put", [1])], 0) := rfl
  have second : composeDemoReport "g" 13 =
      some (.ok (.ofPending (.ofNat 12) 1), [("put", [2])], 1) := rfl
  obtain ⟨⟨outcome, endA⟩, ranA, reportA⟩ := Option.map_eq_some_iff.mp first
  obtain ⟨⟨outcome', endB⟩, ranB, reportB⟩ := Option.map_eq_some_iff.mp second
  simp only [Prod.mk.injEq] at reportA reportB
  obtain ⟨rfl, callsA, liveA⟩ := reportA
  obtain ⟨rfl, callsB, liveB⟩ := reportB
  have answers : (Primitives.scripted [("put", .echo)]).Answers _
      (fun name values => ((Primitives.scripted [("put", .echo)]).invoke () name values).1) :=
    ⟨fun _ => rfl, fun _ _ _ => rfl⟩
  obtain ⟨final, ran, live, calls⟩ := independent_entries_compose _ _ _ answers composeDemo .lenient
    () () () "f" "g" 7 12 0 1 endA endB (by decide) ranA ranB
  exact ⟨by decide, endA, endB, final, ranA, ranB, callsA, callsB, liveA, liveB,
    ran 20 (by decide), live, calls⟩

end Engine

end Dataflow
