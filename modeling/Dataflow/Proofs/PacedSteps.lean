import Dataflow.CommandLine.Run
import Dataflow.Proofs.CheckpointFidelity
import Dataflow.Proofs.StepRules

/-! Stepping an engine under a budget. The loop of the command line prints as it goes; here
the same loop only keeps account: of the answers that it got, of the budget that is left and of
the text that was written. The budget pays for each step, and a loop that ends for want of
budget has come to an engine from which a run goes on to the same end. -/
namespace Dataflow

namespace Engine

/-- Steps go by the policy and do not change it. -/
theorem steps_policy {primitives : Primitives σ} {engine after : Engine σ} {step : Step}
    (steps : Steps primitives engine step after) : after.policy = engine.policy := by
  cases steps with
  | advance running advances => cases advances <;> rfl
  | halt idle nothing => rfl
  | dispatch idle chosen dispatches =>
    cases dispatches with
    | primitive target read replied enough bound => rfl
    | function target advances => cases advances <;> rfl

/-- The same engine with all that was written taken away. -/
def drained (engine : Engine Console) : Engine Console :=
  { engine with host := engine.host.drained }

/-- A step from an empty console writes what the step adds to any other. -/
theorem step_emptied {engine : Engine Console} (roomy : engine.host.capacity = none) :
    ∃ text, (engine.step .standard).2.host = ⟨engine.host.text ++ text, none⟩ ∧
      (engine.rehost Console.unlimited).step .standard =
        ((engine.step .standard).1, (engine.step .standard).2.rehost ⟨text, none⟩) := by
  have continues : engine.host.Continues engine.host.text Console.unlimited :=
    ⟨by simp [Console.unlimited], roomy, rfl⟩
  obtain ⟨⟨text, capacity⟩, ⟨written, still, ample⟩, stepped⟩ :=
    step_rehost (Primitives.standard_alike engine.host.text) engine continues
  cases ample
  exact ⟨text, by rw [← written, ← still], stepped⟩

end Engine

namespace CommandLine

/-- The exit code that goes with an ending. -/
def Ending.code : Ending → UInt8
  | .failed _ => 1
  | _ => 0

/-- Why a loop does not go on after this answer, if it does not. -/
def stop? : Except Failure Step → Option (Except Exit Ending)
  | .ok .done => some (.ok .finished)
  | .ok (.stalled pending) => some (.ok (.stalled pending))
  | .ok _ => none
  | .error (.error error) => some (.ok (.failed error))
  | .error .unsoundCall => some (.error .crash)

theorem stop?_eq_none_iff {answer : Except Failure Step} :
    stop? answer = none ↔ ∃ step, answer = .ok step ∧ step.madeProgress = true := by
  cases answer with
  | error failure => cases failure <;> simp [stop?]
  | ok step => cases step <;> simp [stop?, Step.madeProgress]

/-- How the steps under a budget went. -/
structure Pace where
  stop : Except Exit Ending
  answers : List (Except Failure Step)
  left : Option UInt64
  written : String
  engine : Engine Console

namespace Pace

/-- The pace of a loop whose first step was answered so. -/
def after (answer : Except Failure Step) (text : String) (pace : Pace) : Pace :=
  { pace with answers := answer :: pace.answers, written := text ++ pace.written }

/-- Step an engine until it cannot go on or the budget is spent. -/
def ofEngine : Nat → Option UInt64 → Engine Console → Pace
  | 0, budget, engine => ⟨.error .unfinished, [], budget, "", engine⟩
  | fuel + 1, budget, engine =>
    if budget = some 0 then ⟨.ok .outOfBudget, [], budget, "", engine⟩
    else
      let (answer, next) := engine.step .standard
      match stop? answer with
      | some stop => ⟨stop, [answer], budget, next.host.text, next.drained⟩
      | none => (ofEngine fuel (budget.map (· - 1)) next.drained).after answer next.host.text

/-- Number of steps that made progress. -/
def progress (pace : Pace) : Nat :=
  pace.answers.countP fun answer => (stop? answer).isNone

/-- The budget pays for every step. What is left and what was spent on progress make up the
budget, so that the counter never passes zero. -/
theorem within_budget (fuel : Nat) (budget : UInt64) (engine : Engine Console) :
    let pace := ofEngine fuel (some budget) engine
    pace.answers.length ≤ budget.toNat ∧
      ∃ left, pace.left = some left ∧ left.toNat + pace.progress = budget.toNat := by
  induction fuel generalizing budget engine with
  | zero => exact ⟨Nat.zero_le _, budget, rfl, rfl⟩
  | succ fuel ih =>
    by_cases spent : budget = 0
    · subst spent
      exact ⟨Nat.zero_le _, 0, rfl, rfl⟩
    · have least : 1 ≤ budget.toNat := by
        rw [← UInt64.toNat_inj] at spent
        exact Nat.one_le_iff_ne_zero.mpr spent
      have spend : (budget - 1).toNat = budget.toNat - 1 :=
        UInt64.toNat_sub_of_le budget 1 (UInt64.le_iff_toNat_le.mpr least)
      rw [ofEngine, if_neg (by simpa using spent)]
      cases engine.step .standard with
      | mk answer next =>
        dsimp only
        cases ends : stop? answer with
        | some stop => exact ⟨least, budget, rfl, by simp [progress, ends]⟩
        | none =>
          obtain ⟨few, left, same, sum⟩ := ih (budget - 1) next.drained
          rw [progress] at sum
          refine ⟨?_, left, same, ?_⟩
          · show (ofEngine fuel (some (budget - 1)) next.drained).answers.length + 1 ≤ _
            omega
          · simp only [progress, after, Option.map_some, List.countP_cons, ends, Option.isNone_none,
              if_true]
            omega

end Pace

/-- The exit code that goes with the reply of a run. -/
def replyCode : Except Failure RunOutcome → UInt8
  | .ok _ => 0
  | .error _ => 1

/-- An engine on its way: a run from it ends within `fuel` steps, with this reply and at this
engine. -/
structure Underway (program : Program) (policy : ReadPolicy) (fuel : Nat)
    (reply : Except Failure RunOutcome) (final engine : Engine Console) : Prop where
  program : engine.program = program
  policy : engine.policy = policy
  roomy : engine.host.capacity = none
  ran : engine.run .standard fuel = some (reply, final)

variable {program : Program} {policy : ReadPolicy} {fuel more : Nat}
  {reply : Except Failure RunOutcome} {final engine after : Engine Console} {step : Step}

theorem Underway.mono (underway : Underway program policy fuel reply final engine)
    (enough : fuel ≤ more) : Underway program policy more reply final engine :=
  ⟨underway.program, underway.policy, underway.roomy, Engine.run_mono underway.ran enough⟩

theorem Underway.next (underway : Underway program policy (fuel + 1) reply final engine)
    (stepped : engine.step .standard = (.ok step, after)) (progress : step.madeProgress = true)
    (roomy : after.host.capacity = none) : Underway program policy fuel reply final after := by
  have steps := Engine.step_ok_iff.mp stepped
  have same := Engine.step_program .standard engine
  have ran := underway.ran
  rw [stepped] at same
  rw [Engine.run_progress steps progress] at ran
  exact ⟨same.trans underway.program, (Engine.steps_policy steps).trans underway.policy, roomy, ran⟩

/-- The last step of a run. If it does not fail then the engine stays as it is, and a run from
it ends in the same way once more. -/
theorem Underway.last (underway : Underway program policy (fuel + 1) reply final engine)
    (safe : reply ≠ .error .unsoundCall) {answer : Except Failure Step} {stop : Except Exit Ending}
    (stepped : engine.step .standard = (answer, after)) (stops : stop? answer = some stop) :
    after = final ∧ ∃ ending, stop = .ok ending ∧ ending.code = replyCode reply ∧
      (ending.code = 0 → Underway program policy (fuel + 1) reply final final) := by
  have ran := underway.ran
  rw [Engine.run, stepped] at ran
  cases answer with
  | error failure =>
    cases ran
    cases failure with
    | unsoundCall => exact absurd rfl safe
    | error error =>
      cases stops
      exact ⟨rfl, _, rfl, rfl, fun well => absurd well (by simp [Ending.code])⟩
  | ok step =>
    have stays (halted : step.madeProgress = false) : after = engine := by
      have same := (Engine.halted_step (by rw [stepped]) halted).2.2.2
      rwa [stepped] at same
    cases step with
    | done =>
      cases ran
      cases stops
      exact ⟨rfl, _, rfl, rfl, fun _ => by rwa [← stays rfl] at underway⟩
    | stalled pending =>
      cases ran
      cases stops
      exact ⟨rfl, _, rfl, rfl, fun _ => by rwa [← stays rfl] at underway⟩
    | _ => cases stops

/-- Stepping under a budget stays on the way of an uninterrupted run and writes what the run
writes there. Without a budget it comes to the end. -/
theorem pace_underway (underway : Underway program policy fuel reply final engine)
    (safe : reply ≠ .error .unsoundCall) (enough : fuel ≤ more) (budget : Option UInt64) :
    let pace := Pace.ofEngine more budget (engine.rehost Console.unlimited)
    ∃ reached ending, pace.stop = .ok ending ∧ pace.engine = reached.rehost Console.unlimited ∧
      reached.host.text = engine.host.text ++ pace.written ∧
      (ending.code = 0 ∨ ending.code = replyCode reply) ∧
      (ending.code = 0 → Underway program policy fuel reply final reached) ∧
      (budget = none → reached = final ∧ ending.code = replyCode reply) := by
  induction fuel generalizing engine budget more with
  | zero => cases underway.ran
  | succ fuel ih =>
    obtain ⟨spare, rfl⟩ := Nat.exists_eq_add_of_le' enough
    by_cases spent : budget = some 0
    · subst spent
      exact ⟨engine, .outOfBudget, rfl, rfl, by simp [Pace.ofEngine], .inl rfl, fun _ => underway,
        fun unlimited => by cases unlimited⟩
    · obtain ⟨text, host, emptied⟩ := Engine.step_emptied underway.roomy
      rw [← Nat.add_assoc, Pace.ofEngine, if_neg spent, emptied]
      cases stepped : engine.step .standard with
      | mk answer after =>
        rw [stepped] at host
        dsimp only at host ⊢
        cases stops : stop? answer with
        | none =>
          obtain ⟨step, rfl, progress⟩ := stop?_eq_none_iff.mp stops
          have next := underway.next stepped progress (by rw [host])
          obtain ⟨reached, ending, stop, same, written, code, goes, ends⟩ :=
            ih next (Nat.le_add_left fuel spare) (budget.map (· - 1))
          refine ⟨reached, ending, stop, same, ?_, code,
            fun well => (goes well).mono (Nat.le_succ fuel),
            fun unlimited => ends (by rw [unlimited]; rfl)⟩
          rw [written, host]
          exact String.append_assoc ..
        | some stop =>
          obtain ⟨rfl, ending, rfl, code, goes⟩ := underway.last safe stepped stops
          exact ⟨after, ending, rfl, rfl, congrArg Console.text host, .inr code, goes,
            fun _ => ⟨rfl, code⟩⟩

end CommandLine

end Dataflow
