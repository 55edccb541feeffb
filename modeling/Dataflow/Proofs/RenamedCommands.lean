import Dataflow.Proofs.CommandRules
import Dataflow.Proofs.Interleaving
import Dataflow.Proofs.StoreUnion

/-! Commands do not depend on the ids of cells. A machine that works on one part of a
common store, beside a part that it cannot name, does what it does alone, up to the
renaming of that part. Only a new cell extends the renaming: it gets an id that is free
in the part alone and another one that is free in the common store. -/
namespace Dataflow

def Operand.rename (f : CellId → CellId) : Operand → Operand
  | .cell id => .cell (f id)
  | .literal word => .literal word

def Task.rename (f : CellId → CellId) (task : Task) : Task :=
  ⟨task.name, task.inputs.map f, task.outputs.map f⟩

def Call.rename (f : CellId → CellId) (call : Call) : Call :=
  ⟨call.task.rename f, call.sharedInputs, call.sharedOutputs⟩

def Frame.rename (f : CellId → CellId) (frame : Frame) : Frame :=
  ⟨frame.task.rename f, frame.position, frame.stack.map (Operand.rename f), frame.call.rename f⟩

variable {f h : CellId → CellId}

namespace Task

@[simp] theorem label_rename (f : CellId → CellId) (task : Task) :
    (task.rename f).label = task.label := rfl

theorem cells_rename (f : CellId → CellId) (task : Task) :
    (task.rename f).cells = task.cells.map f := by
  simp [cells, rename]

theorem rename_congr {task : Task} (same : ∀ id ∈ task.cells, f id = h id) :
    task.rename f = task.rename h := by
  have inputs : task.inputs.map f = task.inputs.map h :=
    List.map_congr_left fun id member => same id (List.mem_append.mpr (.inl member))
  have outputs : task.outputs.map f = task.outputs.map h :=
    List.map_congr_left fun id member => same id (List.mem_append.mpr (.inr member))
  rw [rename, rename, inputs, outputs]

end Task

namespace Call

variable {call : Call}

theorem isSound_rename (f : CellId → CellId) (call : Call) :
    (call.rename f).isSound = call.isSound := by
  simp [isSound, rename, Task.rename]

theorem shared_rename (f : CellId → CellId) (call : Call) :
    (call.rename f).shared = call.shared.map f := by
  simp [shared, rename, Task.rename, List.map_take]

theorem rename_addInput (id : CellId) :
    (call.addInput id).rename f = (call.rename f).addInput (f id) := by
  simp [addInput, rename, Task.rename]

theorem rename_addOutput (id : CellId) :
    (call.addOutput id).rename f = (call.rename f).addOutput (f id) := by
  simp [addOutput, rename, Task.rename]

theorem rename_issued (name : String) :
    (call.issued name).rename f = (call.rename f).issued name := by
  simp [issued, rename, Task.rename]

end Call

/-- The renaming of a frame depends on the cells that it can name. -/
theorem Frame.rename_congr {frame : Frame} (same : ∀ id ∈ frame.mentions, f id = h id) :
    frame.rename f = frame.rename h := by
  have task : frame.task.rename f = frame.task.rename h :=
    Task.rename_congr fun id member => same id (by simp [mentions, member])
  have call : frame.call.task.rename f = frame.call.task.rename h :=
    Task.rename_congr fun id member => same id (by simp [mentions, member])
  have stack : frame.stack.map (Operand.rename f) = frame.stack.map (Operand.rename h) := by
    refine List.map_congr_left fun operand member => ?_
    cases operand with
    | cell id => rw [Operand.rename, Operand.rename, same id (stack_mentioned member)]
    | literal word => rfl
  rw [rename, rename, Call.rename, Call.rename, task, call, stack]

theorem cellAt_map {cells : List CellId} {index : UInt64} {id : CellId}
    (found : cellAt cells index = .ok id) : cellAt (cells.map f) index = .ok (f id) := by
  unfold cellAt at found ⊢
  cases held : cells[index.toNat]? with
  | none => simp [held] at found
  | some other =>
    simp only [held, Except.ok.injEq] at found
    simp [held, found]

/-- The end of a task of the left part, whose cells are live. The sweep spares the right
part if all its cells are referenced. -/
theorem Store.union_retire {g : CellId → CellId} {left right whole : Store} {task : Task}
    (union : Union f g left right whole) (live : ∀ id ∈ task.cells, left.contains id = true)
    (referenced : right.Referenced) :
    Union f g (left.release task.cells).collect right
      (whole.release (task.rename f).cells).collect := by
  rw [Task.cells_rename]
  exact union_collect (union_release union live) referenced

namespace Machine

/-- A machine at work in a common store and queue, beside a part of both that belongs
to somebody else. -/
structure Beside (f g : CellId → CellId) (right : Store) (others : List Task)
    (machine whole : Machine) : Prop where
  frame : whole.frame = machine.frame.rename f
  store : Store.Union f g machine.store right whole.store
  queue : Interleaving (machine.queue.tasks.map (Task.rename f)) (others.map (Task.rename g))
    whole.queue.tasks

variable {g : CellId → CellId} {right : Store} {others : List Task}
  {machine after whole : Machine} {policy : ReadPolicy} {command : Command} {calls total : Nat}
  {dropped lost : List CellId}

private theorem stack_rename {frame : Frame} {operands : List Operand}
    (stack : frame.stack = operands) :
    (frame.rename f).stack = operands.map (Operand.rename f) := by
  rw [← stack]
  rfl

private theorem create_beside (beside : machine.Beside f g right others whole)
    (kept : machine.Kept calls dropped) (keptWhole : whole.Kept total lost)
    (few : calls < UInt32.size) (fewWhole : total < UInt32.size) :
    ((machine.withStore machine.store.allocate).push (.cell machine.store.freshId)).Beside
      (Function.update f machine.store.freshId whole.store.freshId) g right others
      ((whole.withStore whole.store.allocate).push (.cell whole.store.freshId)) := by
  have new := Store.freshId_not_live (id_room kept few)
  have free := Store.freshId_not_live (id_room keptWhole fewWhole)
  -- All that the machine can name is live, so none of it is the new cell.
  have same : ∀ id, machine.store.contains id = true →
      f id = Function.update f machine.store.freshId whole.store.freshId id := by
    intro id live
    refine (Function.update_of_ne (fun fresh => ?_) _ _).symm
    simp [fresh, new] at live
  have frame := beside.frame
  have queue := beside.queue
  rw [Frame.rename_congr fun id named => same id ((kept.held _ rfl).live id named)] at frame
  have tasks : machine.queue.tasks.map (Task.rename f) = machine.queue.tasks.map
      (Task.rename (Function.update f machine.store.freshId whole.store.freshId)) := by
    refine List.map_congr_left fun task member => Task.rename_congr fun id listed => same id ?_
    exact queue_live kept (List.mem_flatMap.mpr ⟨task, member, listed⟩)
  rw [tasks] at queue
  refine ⟨?_, Store.union_allocate beside.store new free, queue⟩
  simp [push, withStore, Frame.push, frame, Frame.rename, Operand.rename]

/-- A command does the same in the common store. -/
theorem executes_beside (beside : machine.Beside f g right others whole)
    (kept : machine.Kept calls dropped) (keptWhole : whole.Kept total lost)
    (few : calls < UInt32.size) (fewWhole : total < UInt32.size)
    (rule : Executes policy machine command after) :
    ∃ h changed, Executes policy whole command changed ∧
      after.Beside h g right others changed := by
  have created := create_beside beside kept keptWhole few fewWhole
  obtain ⟨frame, common, queue⟩ := whole
  obtain ⟨rfl, store, tasks⟩ := beside
  cases rule with
  | dupl stack => exact ⟨f, _, .dupl (stack_rename stack), rfl, store, tasks⟩
  | descCall => exact ⟨f, _, .descCall, rfl, store, tasks⟩
  | create => exact ⟨_, _, .create, created⟩
  | assign stack bound =>
    obtain ⟨changed, moved, store⟩ := Store.union_update store bound
    exact ⟨f, _, .assign (stack_rename stack) moved, rfl, store, tasks⟩
  | assignTop stack read bound =>
    obtain ⟨changed, moved, union⟩ := Store.union_update store bound
    have found := Store.embeds_read store.ofLeft read
    exact ⟨f, _, .assignTop (stack_rename stack) found moved, rfl, union, tasks⟩
  | output stack raised =>
    obtain ⟨changed, moved, store⟩ := Store.union_update store raised
    refine ⟨f, _, .output (stack_rename stack) moved, ?_, store, tasks⟩
    simp [withStack, withStore, withCall, Frame.rename, Call.rename_addOutput]
  | input stack raised =>
    obtain ⟨changed, moved, store⟩ := Store.union_update store raised
    refine ⟨f, _, .input (stack_rename stack) moved, ?_, store, tasks⟩
    simp [withStack, withStore, withCall, Frame.rename, Call.rename_addInput]
  | push word => exact ⟨f, _, .push word, rfl, store, tasks⟩
  | @pushFunc name rest _ stack sound raised =>
    obtain ⟨changed, moved, store⟩ := Store.union_increfAll store raised
    have listed : common.increfAll (machine.frame.call.rename f).shared = .ok changed := by
      rw [Call.shared_rename]
      exact moved
    refine ⟨f, _, .pushFunc (stack_rename stack) ((Call.isSound_rename f _).trans sound) listed, ?_,
      store, ?_⟩
    · simp [withStack, withStore, withCall, Frame.rename, Call.rename_issued]
    · have issued : (machine.frame.call.issued name).task.rename f =
          ((machine.frame.call.rename f).issued name).task :=
        congrArg Call.task (Call.rename_issued name)
      simp only [Queue.push, List.map_append, List.map_singleton, issued]
      exact tasks.append_left _
  | pushParam found =>
    exact ⟨f, _, .pushParam (cellAt_map found), rfl, store, tasks⟩
  | pushReturn found =>
    exact ⟨f, _, .pushReturn (cellAt_map found), rfl, store, tasks⟩

end Machine

end Dataflow
