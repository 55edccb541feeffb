import Dataflow.Proofs.EngineAccounts

/-! The store of an idle engine has no unreferenced cell. A cell without references
lives within a running frame only, where the operand stack may name it; the end of
the frame sweeps it. So the live cells of an idle engine are those that pending tasks
list and those that were dropped. -/
namespace Dataflow

/-- Something refers to every live cell. -/
def Store.Referenced (store : Store) : Prop :=
  ∀ id cell, store.get? id = some cell → cell.refs ≠ 0

theorem Store.referenced_empty : Store.empty.Referenced := by
  intro id cell held
  simp [empty, get?] at held

theorem Store.referenced_collect (store : Store) : store.collect.Referenced := by
  intro id cell held
  rw [get?_collect, Option.filter_eq_some_iff] at held
  simpa using held.2

namespace Engine

variable {engine : Engine σ} {calls : Nat} {dropped : List CellId} {frame : Frame} {task : Task}

/-- If the engine is idle, every live cell is referenced. -/
def Tidy (engine : Engine σ) : Prop := engine.frame = none → engine.store.Referenced

private theorem tidy_running (running : engine.frame = some frame) : engine.Tidy := by
  intro idle
  simp [running] at idle

private theorem advance_tidy (engine : Engine σ) (running : engine.frame = some frame) :
    (engine.advance frame).2.Tidy := by
  unfold advance
  split
  · exact tidy_running running
  · split
    · -- Only the end of a function leaves the engine idle, and it sweeps the store.
      exact fun _ => Store.referenced_collect _
    · split
      · exact tidy_running rfl
      · exact tidy_running rfl
      · exact tidy_running rfl

private theorem invoke_tidy {primitives : Primitives σ} {key : String}
    (referenced : engine.store.Referenced)
    (inHand : Accounts calls (dropped ++ task.cells) engine.store engine.queue none) :
    (engine.invoke primitives key task).2.Tidy := by
  unfold invoke
  split
  · exact fun _ => referenced
  · split
    · exact fun _ => referenced
    · rename_i results host reply
      unfold settle
      split
      · exact fun _ => referenced
      · obtain ⟨bound, done, -⟩ := accounts_bindOutputs results inHand
        rw [done]
        exact fun _ => Store.referenced_collect _

theorem step_tidy (primitives : Primitives σ) (kept : engine.Kept calls dropped)
    (tidy : engine.Tidy) : (engine.step primitives).2.Tidy := by
  unfold step
  cases running : engine.frame with
  | some frame => exact advance_tidy engine running
  | none =>
    dsimp only
    unfold schedule
    split
    · exact tidy
    · split
      · exact tidy
      · exact tidy
      · rename_i skipped task later chosen
        obtain ⟨inHand, -⟩ := take_ready running kept chosen
        unfold dispatch
        split
        · exact fun _ => tidy running
        · exact invoke_tidy (tidy running) inHand
        · exact advance_tidy _ rfl

/-- Every history leaves a tidy engine. -/
theorem history_tidy (primitives : Primitives σ) (program : Program) (host : σ)
    (requests : List Request) (few : requests.count .step ≤ UInt32.size) :
    ((ofProgram program host).after primitives requests).Tidy := by
  have empty : (ofProgram program host).Tidy := fun _ => Store.referenced_empty
  exact (holds_after primitives UInt32.size
    (fun calls past engine => engine.Kept calls past ∧ engine.Tidy)
    (fun name holds => ⟨seed_kept name holds.1, holds.2⟩) (fun policy holds => holds)
    (fun within holds => ⟨(step_sound holds.1 within).1, step_tidy primitives holds.1 holds.2⟩)
    ⟨new_kept program host, empty⟩ requests (by omega)).2

/-- The live cells of an idle engine are those of the pending tasks and the dropped
ones. -/
theorem idle_live_iff (kept : engine.Kept calls dropped) (tidy : engine.Tidy)
    (idle : engine.frame = none) (id : CellId) :
    engine.store.contains id = true ↔ id ∈ engine.queue.roles ++ dropped := by
  rw [Kept, idle] at kept
  have owed : engine.queue.roles ++ rolesOf none ++ dropped = engine.queue.roles ++ dropped := by
    simp [rolesOf]
  constructor
  · intro live
    obtain ⟨cell, held⟩ := Store.contains_iff.mp live
    have counted := kept.balanced.exact id cell held
    have positive : cell.refs.toNat ≠ 0 := fun zero =>
      tidy idle id cell held (UInt64.toNat_inj.mp zero)
    rw [owed] at counted
    exact List.count_pos_iff.mp (by omega)
  · intro member
    exact kept.balanced.live id (owed ▸ member)

end Engine

end Dataflow
