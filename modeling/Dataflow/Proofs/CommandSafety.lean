import Dataflow.Proofs.CommandAccounts

/-! Executing a command on a machine whose books are kept. A command completes
or faults, never for want of a cell and never on an unsound call, and the books
are kept either way. -/
namespace Dataflow.Machine

variable {machine : Machine} {calls : Nat} {dropped drops : List CellId}

/-- The books of a machine. -/
abbrev Kept (calls : Nat) (dropped : List CellId) (machine : Machine) : Prop :=
  Accounts calls dropped machine.store machine.queue (some machine.frame)

/-- The machine with another stack. -/
def withStack (machine : Machine) (stack : List Operand) : Machine :=
  { machine with frame := { machine.frame with stack := stack } }

/-- How a command may end on a machine with kept books. -/
def Safe (calls : Nat) (dropped drops : List CellId) : Attempt Machine → Prop
  | .ok after => after.Kept (calls + 1) (dropped ++ drops)
  | .error (.fault fault, left) =>
    left.Kept (calls + 1) dropped ∧ ∀ id, fault ≠ .danglingReference id
  | .error (.unsoundCall, _) => False

theorem pop_nil (role : Operand → Except Fault α) (empty : machine.frame.stack = []) :
    machine.pop role = .error (.fault .stackUnderflow, machine) := by
  simp [pop, check, Frame.peek, empty, bind, Except.bind]

theorem pop_cons {top : Operand} {rest : List Operand} (role : Operand → Except Fault α)
    (stack : machine.frame.stack = top :: rest) :
    machine.pop role =
      match role top with
      | .ok operand => .ok (operand, machine.withStack rest)
      | .error fault => .error (.fault fault, machine.withStack rest) := by
  have dropped : ({ machine with frame := machine.frame.drop } : Machine) =
      machine.withStack rest := by
    simp [withStack, Frame.drop, stack]
  cases played : role top <;>
    simp [pop, check, Frame.peek, stack, bind, Except.bind, pure, Except.pure, dropped, played]

/-- Popping finds the operand it wants, or leaves kept books and a harmless
fault. -/
theorem pop_cases (kept : machine.Kept calls dropped) {role : Operand → Except Fault α}
    (harmless : ∀ top fault, role top = .error fault → ∀ id, fault ≠ .danglingReference id) :
    (∃ top rest operand, machine.frame.stack = top :: rest ∧ role top = .ok operand ∧
      machine.pop role = .ok (operand, machine.withStack rest) ∧
      (machine.withStack rest).Kept calls dropped) ∨
    ∃ fault left, machine.pop role = .error (.fault fault, left) ∧ left.Kept calls dropped ∧
      ∀ id, fault ≠ .danglingReference id := by
  cases stack : machine.frame.stack with
  | nil =>
    exact .inr ⟨_, _, pop_nil role stack, kept, fun id same => by cases same⟩
  | cons top rest =>
    have below : (machine.withStack rest).Kept calls dropped := accounts_pop kept stack
    have popped := pop_cons role stack
    cases played : role top with
    | ok operand =>
      rw [played] at popped
      exact .inl ⟨top, rest, operand, rfl, played, popped, below⟩
    | error fault =>
      rw [played] at popped
      exact .inr ⟨fault, _, popped, below, harmless top fault played⟩

theorem asCell_eq {top : Operand} {id : CellId} (found : top.asCell = .ok id) : top = .cell id := by
  cases top with
  | cell other => cases found; rfl
  | literal word => cases found

theorem asCell_harmless (top : Operand) (fault : Fault) (failed : top.asCell = .error fault)
    (id : CellId) : fault ≠ .danglingReference id := by
  cases top with
  | cell other => cases failed
  | literal word => cases failed; exact fun same => by cases same

theorem asName_harmless (top : Operand) (fault : Fault) (failed : top.asName = .error fault)
    (id : CellId) : fault ≠ .danglingReference id := by
  cases top with
  | cell other => cases failed; exact fun same => by cases same
  | literal word => cases failed

/-- A cell on top of the stack is live. -/
theorem top_live (kept : machine.Kept calls dropped) {top : Operand} {rest : List Operand}
    {id : CellId} (stack : machine.frame.stack = top :: rest) (found : top.asCell = .ok id) :
    machine.store.contains id = true := by
  have inside : .cell id ∈ machine.frame.stack := by
    rw [stack, asCell_eq found]
    exact List.mem_cons_self
  exact (kept.held machine.frame rfl).live id (Frame.stack_mentioned inside)

/-- The cell on top is found, and everything else on top is a harmless fault. -/
theorem peekCell_cases (kept : machine.Kept calls dropped) :
    (∃ id, machine.frame.peekCell = .ok id ∧ machine.store.contains id = true) ∨
    ∃ fault, machine.frame.peekCell = .error fault ∧ ∀ id, fault ≠ .danglingReference id := by
  cases stack : machine.frame.stack with
  | nil =>
    exact .inr ⟨.stackUnderflow, by simp [Frame.peekCell, Frame.peek, stack],
      fun id same => by cases same⟩
  | cons top rest =>
    have peeked : machine.frame.peekCell = top.asCell := by
      simp [Frame.peekCell, Frame.peek, stack]
    cases found : top.asCell with
    | ok id => exact .inl ⟨id, peeked.trans found, top_live kept stack found⟩
    | error fault => exact .inr ⟨fault, peeked.trans found, asCell_harmless top fault found⟩

private theorem safe_fault {fault : Fault} (kept : machine.Kept calls dropped)
    (harmless : ∀ id, fault ≠ .danglingReference id) :
    Safe calls dropped drops (.error (.fault fault, machine)) :=
  ⟨accounts_mono kept, harmless⟩

private theorem safe_ok (kept : machine.Kept (calls + 1) dropped) :
    Safe calls dropped [] (.ok machine) := by
  simpa [Safe] using kept

private theorem assign_safe (kept : machine.Kept calls dropped) (value : Value) :
    Safe calls dropped [] (do
      let target ← machine.check machine.frame.peekCell
      let store ← machine.check (machine.store.bind target value)
      return machine.withStore store) := by
  rcases peekCell_cases kept with ⟨target, peeked, live⟩ | ⟨fault, failed, harmless⟩
  · obtain ⟨after, done, balanced, same⟩ := Store.balanced_bind kept.balanced live value
    simp only [peeked, done, check, bind, Except.bind, pure, Except.pure]
    exact safe_ok (accounts_mono (accounts_store kept balanced same))
  · simp only [failed, check, bind, Except.bind]
    exact safe_fault kept harmless

private theorem join_safe (kept : machine.Kept calls dropped) (few : calls < UInt32.size)
    {add : Call → CellId → Call}
    (grown : ∀ call id, call.isSound = true → (add call id).unshared.Perm (id :: call.unshared))
    (listed : ∀ call id, (add call id).task.cells.Perm (id :: call.task.cells))
    (sound : ∀ call id, call.isSound = true → (add call id).isSound = true) :
    Safe calls dropped [] (do
      let (id, machine) ← machine.popRole
      return machine.withCall (add machine.frame.call id)) := by
  rcases pop_cases kept asCell_harmless with
    ⟨top, rest, id, stack, played, popped, below⟩ | ⟨fault, left, failed, keptLeft, harmless⟩
  · have held := kept.held machine.frame rfl
    obtain ⟨after, done, books⟩ := accounts_join below few (top_live kept stack played)
      (grown machine.frame.call id held.sound) (listed machine.frame.call id)
      (sound machine.frame.call id held.sound)
    have raised : (machine.withStack rest).store.incref id = .ok after := done
    simp only [popRole, popCell, popped, check, raised, bind, Except.bind, pure, Except.pure]
    exact safe_ok books
  · simp only [popRole, popCell, failed, bind, Except.bind]
    exact safe_fault keptLeft harmless

private theorem assignTop_safe (kept : machine.Kept calls dropped) (policy : ReadPolicy) :
    Safe calls dropped [] (machine.execute policy .assignTop) := by
  rcases pop_cases kept asCell_harmless with
    ⟨top, rest, source, stack, played, popped, below⟩ | ⟨fault, left, failed, keptLeft, harmless⟩
  · have live : (machine.withStack rest).store.contains source = true :=
      top_live kept stack played
    cases read : (machine.withStack rest).store.read policy source with
    | error fault =>
      have unbound := Store.read_live live policy fault read
      simp only [execute, popCell, popped, check, read, bind, Except.bind]
      exact safe_fault below fun id same => by cases unbound.symm.trans same
    | ok value =>
      have assigned := assign_safe below value
      simpa only [execute, popCell, popped, check, read, bind, Except.bind] using assigned
  · simp only [execute, popCell, failed, bind, Except.bind]
    exact safe_fault keptLeft harmless

private theorem pushFunc_safe (kept : machine.Kept calls dropped) (few : calls < UInt32.size)
    (policy : ReadPolicy) : Safe calls dropped [] (machine.execute policy .pushFunc) := by
  rcases pop_cases kept asName_harmless with
    ⟨top, rest, name, stack, played, popped, below⟩ | ⟨fault, left, failed, keptLeft, harmless⟩
  · obtain ⟨after, done, books⟩ := accounts_issue below few name
    have sound := (below.held _ rfl).sound
    simp only [execute, popName, popped, bind, Except.bind, enqueueCall, sound, if_true, done]
    exact safe_ok books
  · simp only [execute, popName, failed, bind, Except.bind]
    exact safe_fault keptLeft harmless

private theorem pushListed_safe (kept : machine.Kept calls dropped) {cells : List CellId}
    (within : ∀ id ∈ cells, id ∈ machine.frame.task.cells) (index : UInt64) :
    Safe calls dropped [] (do
      let id ← machine.check (cellAt cells index)
      return machine.push (.cell id)) := by
  cases found : cellAt cells index with
  | ok id =>
    simp only [check, bind, Except.bind, pure, Except.pure]
    refine safe_ok (accounts_mono (accounts_push kept fun other same => ?_))
    cases same
    exact Frame.cellAt_mentioned within found
  | error fault =>
    simp only [check, bind, Except.bind]
    refine safe_fault kept fun id same => ?_
    unfold cellAt at found
    split at found
    · cases found
    · cases found
      cases same

/-- Every command completes or faults harmlessly, and the books are kept. -/
theorem execute_safe (kept : machine.Kept calls dropped) (few : calls < UInt32.size)
    (policy : ReadPolicy) (command : Command) :
    Safe calls dropped (machine.frame.commandDrops command)
      (machine.execute policy command) := by
  cases command with
  | dupl =>
    cases stack : machine.frame.stack with
    | nil =>
      simp only [execute, check, Frame.peek, stack, bind, Except.bind]
      exact safe_fault kept fun id same => by cases same
    | cons top rest =>
      simp only [execute, check, Frame.peek, stack, bind, Except.bind, pure, Except.pure]
      refine safe_ok (accounts_mono (accounts_push kept fun id same => ?_))
      exact Frame.stack_mentioned (by rw [stack, same]; exact List.mem_cons_self)
  | descCall => exact accounts_reset kept
  | create => exact safe_ok (accounts_create kept few)
  | assign value => exact assign_safe kept value
  | assignTop => exact assignTop_safe kept policy
  | output =>
    refine join_safe kept few (fun call id sound => Call.unshared_addOutput sound id) ?_
      (fun call id sound => Call.isSound_addOutput sound)
    intro call id
    simp only [Call.addOutput, Task.cells, ← List.append_assoc]
    exact List.perm_append_singleton id _
  | input =>
    refine join_safe kept few (fun call id sound => Call.unshared_addInput sound id) ?_
      (fun call id sound => Call.isSound_addInput sound)
    intro call id
    simp only [Call.addInput, Task.cells, List.append_assoc]
    exact List.perm_middle
  | push word => exact safe_ok (accounts_mono (accounts_push kept fun id same => by cases same))
  | pushFunc => exact pushFunc_safe kept few policy
  | pushParam index =>
    exact pushListed_safe kept (fun id member => List.mem_append.mpr (.inl member)) index
  | pushReturn index =>
    exact pushListed_safe kept (fun id member => List.mem_append.mpr (.inr member)) index

end Dataflow.Machine
