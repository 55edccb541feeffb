import Dataflow.Proofs.StalledTasks

/-! Two lists merged into one that keeps the order of both. The scheduler takes the
first ready task of a queue, so what it takes from a merged queue is what it would take
from one of the two parts. -/
namespace Dataflow

/-- `whole` has the items of `left` and of `right`, each in their order. -/
inductive Interleaving : List α → List α → List α → Prop where
  | nil : Interleaving [] [] []
  | left {item : α} {left right whole : List α} (rest : Interleaving left right whole) :
      Interleaving (item :: left) right (item :: whole)
  | right {item : α} {left right whole : List α} (rest : Interleaving left right whole) :
      Interleaving left (item :: right) (item :: whole)

namespace Interleaving

variable {left right whole : List α}

theorem swap (merged : Interleaving left right whole) : Interleaving right left whole := by
  induction merged with
  | nil => exact .nil
  | left _ ih => exact .right ih
  | right _ ih => exact .left ih

theorem length_eq (merged : Interleaving left right whole) :
    whole.length = left.length + right.length := by
  induction merged with
  | nil => rfl
  | left _ ih => simp only [List.length_cons, ih]; omega
  | right _ ih => simp only [List.length_cons, ih]; omega

theorem mem_left (merged : Interleaving left right whole) {item : α} (member : item ∈ left) :
    item ∈ whole := by
  induction merged with
  | nil => exact member
  | left _ ih =>
    rcases List.mem_cons.mp member with rfl | later
    · exact List.mem_cons_self
    · exact List.mem_cons_of_mem _ (ih later)
  | right _ ih => exact List.mem_cons_of_mem _ (ih member)

/-- An item that comes last in one part may come last in the whole. -/
theorem append_left (merged : Interleaving left right whole) (last : List α) :
    Interleaving (left ++ last) right (whole ++ last) := by
  induction merged with
  | nil =>
    induction last with
    | nil => exact .nil
    | cons item rest ih => exact .left ih
  | left _ ih => exact .left ih
  | right _ ih => exact .right ih

end Interleaving

namespace Selection

variable {store : Store} {left right whole : List Task}

/-- The same selection of other tasks. -/
def map (change : Task → Task) : Selection → Selection
  | .stalled skipped => .stalled (skipped.map change)
  | .ready skipped task later => .ready (skipped.map change) (change task) (later.map change)
  | .undecided skipped task fault => .undecided (skipped.map change) (change task) fault

/-- Nothing but readiness matters for the selection. -/
theorem ofTasks_map {other : Store} {change : Task → Task} {tasks : List Task}
    (alike : ∀ task ∈ tasks, (change task).isReady other = task.isReady store) :
    ofTasks other (tasks.map change) = (ofTasks store tasks).map change := by
  induction tasks with
  | nil => rfl
  | cons task rest ih =>
    have later := ih fun next member => alike next (List.mem_cons_of_mem _ member)
    rw [List.map_cons, ofTasks, ofTasks, alike task List.mem_cons_self, later]
    cases task.isReady store with
    | error fault => rfl
    | ok answer =>
      cases answer with
      | true => rfl
      | false => cases ofTasks store rest <;> rfl

/-- If the whole queue is stalled, so is each part. -/
theorem stalled_part (merged : Interleaving left right whole) {skipped : List Task}
    (nothing : ofTasks store whole = .stalled skipped) : ofTasks store left = .stalled left :=
  stalled_iff.mpr ⟨rfl, fun task member =>
    (stalled_iff.mp nothing).2 task (merged.mem_left member)⟩

/-- The task that is taken from the whole is the one that is taken from its part, and
what remains of the two is merged to what remains of the whole. -/
theorem ready_part {skipped later : List Task} {task : Task}
    (merged : Interleaving left right whole)
    (chosen : ofTasks store whole = .ready skipped task later) :
    (∃ before behind, ofTasks store left = .ready before task behind ∧
      Interleaving (before ++ behind) right (skipped ++ later)) ∨
    ∃ before behind, ofTasks store right = .ready before task behind ∧
      Interleaving left (before ++ behind) (skipped ++ later) := by
  induction merged generalizing skipped with
  | nil => cases chosen
  | @left first left right whole rest ih =>
    rcases ready_cons_iff.mp chosen with ⟨ready, rfl, rfl, rfl⟩ | ⟨blocked, passed, rfl, found⟩
    · exact .inl ⟨[], left, ready_cons_iff.mpr (.inl ⟨ready, rfl, rfl, rfl⟩), rest⟩
    · rcases ih found with ⟨before, behind, same, merged⟩ | ⟨before, behind, same, merged⟩
      · refine .inl ⟨first :: before, behind, ?_, merged.left⟩
        exact ready_cons_iff.mpr (.inr ⟨blocked, before, rfl, same⟩)
      · exact .inr ⟨before, behind, same, merged.left⟩
  | @right first left right whole rest ih =>
    rcases ready_cons_iff.mp chosen with ⟨ready, rfl, rfl, rfl⟩ | ⟨blocked, passed, rfl, found⟩
    · exact .inr ⟨[], right, ready_cons_iff.mpr (.inl ⟨ready, rfl, rfl, rfl⟩), rest⟩
    · rcases ih found with ⟨before, behind, same, merged⟩ | ⟨before, behind, same, merged⟩
      · exact .inl ⟨before, behind, same, merged.right⟩
      · refine .inr ⟨first :: before, behind, ?_, merged.right⟩
        exact ready_cons_iff.mpr (.inr ⟨blocked, before, rfl, same⟩)

end Selection

end Dataflow
