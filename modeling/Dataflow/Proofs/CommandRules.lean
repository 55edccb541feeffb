import Dataflow.Proofs.CommandSafety

/-! The commands as rules: what has to be on the stack and in the store for a
command to complete, and the machine it then leaves. Execution completes exactly
as the rules say, so a proof about completed commands is a case split over them
and never runs a command. A command that stops takes at most one operand, leaves
the queue alone, and leaves the store alone too if its cells are live. -/
namespace Dataflow.Machine

variable {machine after left : Machine} {policy : ReadPolicy} {command : Command}

/-- A command leads from one machine to another. -/
inductive Executes (policy : ReadPolicy) (machine : Machine) : Command → Machine → Prop where
  | dupl {top : Operand} {rest : List Operand} (stack : machine.frame.stack = top :: rest) :
      Executes policy machine .dupl (machine.push top)
  | descCall : Executes policy machine .descCall (machine.withCall .empty)
  | create :
      Executes policy machine .create
        ((machine.withStore machine.store.allocate).push (.cell machine.store.freshId))
  | assign {value : Value} {target : CellId} {rest : List Operand} {store : Store}
      (stack : machine.frame.stack = .cell target :: rest)
      (bound : machine.store.bind target value = .ok store) :
      Executes policy machine (.assign value) (machine.withStore store)
  | assignTop {source target : CellId} {rest : List Operand} {value : Value} {store : Store}
      (stack : machine.frame.stack = .cell source :: .cell target :: rest)
      (read : machine.store.read policy source = .ok value)
      (bound : machine.store.bind target value = .ok store) :
      Executes policy machine .assignTop
        ((machine.withStack (.cell target :: rest)).withStore store)
  | output {id : CellId} {rest : List Operand} {store : Store}
      (stack : machine.frame.stack = .cell id :: rest)
      (raised : machine.store.incref id = .ok store) :
      Executes policy machine .output
        (((machine.withStack rest).withStore store).withCall (machine.frame.call.addOutput id))
  | input {id : CellId} {rest : List Operand} {store : Store}
      (stack : machine.frame.stack = .cell id :: rest)
      (raised : machine.store.incref id = .ok store) :
      Executes policy machine .input
        (((machine.withStack rest).withStore store).withCall (machine.frame.call.addInput id))
  | push (word : String) : Executes policy machine (.push word) (machine.push (.literal word))
  | pushFunc {name : String} {rest : List Operand} {store : Store}
      (stack : machine.frame.stack = .literal name :: rest)
      (sound : machine.frame.call.isSound = true)
      (raised : machine.store.increfAll machine.frame.call.shared = .ok store) :
      Executes policy machine .pushFunc
        { ((machine.withStack rest).withCall (machine.frame.call.issued name)).withStore store with
          queue := machine.queue.push (machine.frame.call.issued name).task }
  | pushParam {index : UInt64} {id : CellId}
      (found : cellAt machine.frame.task.inputs index = .ok id) :
      Executes policy machine (.pushParam index) (machine.push (.cell id))
  | pushReturn {index : UInt64} {id : CellId}
      (found : cellAt machine.frame.task.outputs index = .ok id) :
      Executes policy machine (.pushReturn index) (machine.push (.cell id))

/-! ### The parts of a command that completes -/

private theorem bind_ok_iff {first : Attempt α} {next : α → Attempt β} {result : β} :
    (first >>= next) = .ok result ↔ ∃ middle, first = .ok middle ∧ next middle = .ok result := by
  cases first <;> simp [bind, Except.bind]

private theorem check_ok_iff {answer : Except Fault α} {result : α} :
    machine.check answer = .ok result ↔ answer = .ok result := by
  cases answer <;> simp [check]

private theorem return_ok_iff {result given : α} :
    (return given : Attempt α) = .ok result ↔ result = given := by
  simp [pure, Except.pure, eq_comm]

private theorem peek_ok_iff {top : Operand} :
    machine.frame.peek = .ok top ↔ ∃ rest, machine.frame.stack = top :: rest := by
  cases stack : machine.frame.stack <;> simp [Frame.peek, stack]

private theorem asCell_ok_iff {top : Operand} {id : CellId} :
    top.asCell = .ok id ↔ top = .cell id := by
  cases top <;> simp [Operand.asCell]

private theorem asName_ok_iff {top : Operand} {name : String} :
    top.asName = .ok name ↔ top = .literal name := by
  cases top <;> simp [Operand.asName]

private theorem peekCell_ok_iff {id : CellId} :
    machine.frame.peekCell = .ok id ↔ ∃ rest, machine.frame.stack = .cell id :: rest := by
  cases stack : machine.frame.stack with
  | nil => simp [Frame.peekCell, Frame.peek, stack]
  | cons top rest => simp [Frame.peekCell, Frame.peek, stack, asCell_ok_iff]

private theorem pop_ok_iff {role : Operand → Except Fault α} {operand : α} :
    machine.pop role = .ok (operand, after) ↔
      ∃ top rest, machine.frame.stack = top :: rest ∧ role top = .ok operand ∧
        after = machine.withStack rest := by
  constructor
  · intro popped
    cases stack : machine.frame.stack with
    | nil => simp [pop_nil role stack] at popped
    | cons top rest =>
      rw [pop_cons role stack] at popped
      cases played : role top with
      | error fault => simp [played] at popped
      | ok found =>
        simp only [played, Except.ok.injEq, Prod.mk.injEq] at popped
        exact ⟨top, rest, rfl, popped.1 ▸ played, popped.2.symm⟩
  · rintro ⟨top, rest, stack, played, rfl⟩
    rw [pop_cons role stack, played]

private theorem popCell_ok_iff {id : CellId} :
    machine.popCell = .ok (id, after) ↔
      ∃ rest, machine.frame.stack = .cell id :: rest ∧ after = machine.withStack rest := by
  simp only [popCell, pop_ok_iff, asCell_ok_iff]
  grind

private theorem popName_ok_iff {name : String} :
    machine.popName = .ok (name, after) ↔
      ∃ rest, machine.frame.stack = .literal name :: rest ∧ after = machine.withStack rest := by
  simp only [popName, pop_ok_iff, asName_ok_iff]
  grind

private theorem popRole_ok_iff {id : CellId} :
    machine.popRole = .ok (id, after) ↔
      ∃ rest store, machine.frame.stack = .cell id :: rest ∧ machine.store.incref id = .ok store ∧
        after = (machine.withStack rest).withStore store := by
  simp only [popRole, bind_ok_iff, check_ok_iff, return_ok_iff, Prod.exists, popCell_ok_iff]
  constructor
  · rintro ⟨found, middle, ⟨rest, stack, rfl⟩, store, raised, same⟩
    cases same
    exact ⟨rest, store, stack, raised, rfl⟩
  · rintro ⟨rest, store, stack, raised, rfl⟩
    exact ⟨id, _, ⟨rest, stack, rfl⟩, store, raised, rfl⟩

private theorem enqueueCall_ok_iff {name : String} :
    machine.enqueueCall name = .ok after ↔
      machine.frame.call.isSound = true ∧ ∃ store,
        machine.store.increfAll machine.frame.call.shared = .ok store ∧
        after = { (machine.withCall (machine.frame.call.issued name)).withStore store with
          queue := machine.queue.push (machine.frame.call.issued name).task } := by
  unfold enqueueCall
  by_cases sound : machine.frame.call.isSound = true
  · cases raised : machine.store.increfAll machine.frame.call.shared with
    | error stop => simp [sound, raised]
    | ok store => simp [sound, raised, eq_comm]
  · simp [sound]

/-- A command completes exactly as its rule says. -/
theorem execute_ok_iff :
    machine.execute policy command = .ok after ↔ Executes policy machine command after := by
  cases command with
  | dupl =>
    simp only [execute, bind_ok_iff, check_ok_iff, peek_ok_iff, return_ok_iff]
    constructor
    · rintro ⟨top, ⟨rest, stack⟩, rfl⟩
      exact .dupl stack
    · intro rule
      cases rule with
      | dupl stack => exact ⟨_, ⟨_, stack⟩, rfl⟩
  | descCall =>
    simp only [execute, return_ok_iff]
    constructor
    · rintro rfl
      exact .descCall
    · intro rule
      cases rule with
      | descCall => rfl
  | create =>
    simp only [execute, return_ok_iff]
    constructor
    · rintro rfl
      exact .create
    · intro rule
      cases rule with
      | create => rfl
  | assign value =>
    simp only [execute, bind_ok_iff, check_ok_iff, peekCell_ok_iff, return_ok_iff]
    constructor
    · rintro ⟨target, ⟨rest, stack⟩, store, bound, rfl⟩
      exact .assign stack bound
    · intro rule
      cases rule with
      | assign stack bound => exact ⟨_, ⟨_, stack⟩, _, bound, rfl⟩
  | assignTop =>
    simp only [execute, bind_ok_iff, check_ok_iff, Prod.exists, popCell_ok_iff, peekCell_ok_iff,
      return_ok_iff]
    constructor
    · rintro ⟨source, middle, ⟨rest, stack, rfl⟩, value, read, target, ⟨below, next⟩, store, bound,
        rfl⟩
      cases (show rest = .cell target :: below from next)
      exact .assignTop stack read bound
    · intro rule
      cases rule with
      | assignTop stack read bound =>
        exact ⟨_, _, ⟨_, stack, rfl⟩, _, read, _, ⟨_, rfl⟩, _, bound, rfl⟩
  | output =>
    simp only [execute, bind_ok_iff, Prod.exists, popRole_ok_iff, return_ok_iff]
    constructor
    · rintro ⟨id, middle, ⟨rest, store, stack, raised, rfl⟩, rfl⟩
      exact .output stack raised
    · intro rule
      cases rule with
      | output stack raised => exact ⟨_, _, ⟨_, _, stack, raised, rfl⟩, rfl⟩
  | input =>
    simp only [execute, bind_ok_iff, Prod.exists, popRole_ok_iff, return_ok_iff]
    constructor
    · rintro ⟨id, middle, ⟨rest, store, stack, raised, rfl⟩, rfl⟩
      exact .input stack raised
    · intro rule
      cases rule with
      | input stack raised => exact ⟨_, _, ⟨_, _, stack, raised, rfl⟩, rfl⟩
  | push word =>
    simp only [execute, return_ok_iff]
    constructor
    · rintro rfl
      exact .push word
    · intro rule
      cases rule with
      | push _ => rfl
  | pushFunc =>
    simp only [execute, bind_ok_iff, Prod.exists, popName_ok_iff, enqueueCall_ok_iff]
    constructor
    · rintro ⟨name, middle, ⟨rest, stack, rfl⟩, sound, store, raised, rfl⟩
      exact .pushFunc stack sound raised
    · intro rule
      cases rule with
      | pushFunc stack sound raised => exact ⟨_, _, ⟨_, stack, rfl⟩, sound, _, raised, rfl⟩
  | pushParam index =>
    simp only [execute, bind_ok_iff, check_ok_iff, return_ok_iff]
    constructor
    · rintro ⟨id, found, rfl⟩
      exact .pushParam found
    · intro rule
      cases rule with
      | pushParam found => exact ⟨_, found, rfl⟩
  | pushReturn index =>
    simp only [execute, bind_ok_iff, check_ok_iff, return_ok_iff]
    constructor
    · rintro ⟨id, found, rfl⟩
      exact .pushReturn found
    · intro rule
      cases rule with
      | pushReturn found => exact ⟨_, found, rfl⟩

/-! ### Commands that stop -/

private theorem bind_error {first : Attempt α} {next : α → Attempt β} {reason : Stop × Machine}
    (stopped : (first >>= next) = .error reason) :
    first = .error reason ∨ ∃ middle, first = .ok middle ∧ next middle = .error reason := by
  cases first with
  | error other => exact .inl (by simpa [bind, Except.bind] using stopped)
  | ok middle => exact .inr ⟨middle, rfl, stopped⟩

/-- The machine itself, or the machine without its top operand. -/
def Spares (machine left : Machine) : Prop :=
  left = machine ∨ ∃ top rest, machine.frame.stack = top :: rest ∧ left = machine.withStack rest

/-- How a command stops. It has changed neither the store nor the queue, unless it came to
a shared cell that is not live when it had raised the counts of the cells before. -/
inductive Stops (machine : Machine) : Command → Stop → Machine → Prop where
  | fault {command : Command} {fault : Fault} {left : Machine} (spares : machine.Spares left) :
      Stops machine command (.fault fault) left
  | dangling {name : String} {rest : List Operand} {fault : Fault} {store : Store}
      (stack : machine.frame.stack = .literal name :: rest)
      (raised : machine.store.increfAll machine.frame.call.shared = .error (fault, store)) :
      Stops machine .pushFunc (.fault fault) ((machine.withStack rest).withStore store)
  | unsound {name : String} {rest : List Operand}
      (stack : machine.frame.stack = .literal name :: rest)
      (unsound : machine.frame.call.isSound = false) :
      Stops machine .pushFunc .unsoundCall (machine.withStack rest)

private theorem check_error {answer : Except Fault α} {stop : Stop}
    (stopped : machine.check answer = .error (stop, left)) :
    ∃ fault, stop = .fault fault ∧ left = machine := by
  cases answer with
  | ok result => cases stopped
  | error fault => cases stopped; exact ⟨fault, rfl, rfl⟩

private theorem check_stops {answer : Except Fault α} {stop : Stop}
    (stopped : machine.check answer = .error (stop, left)) : machine.Stops command stop left := by
  obtain ⟨fault, rfl, rfl⟩ := check_error stopped
  exact .fault (.inl rfl)

private theorem check_stops_below {answer : Except Fault α} {stop : Stop} {top : Operand}
    {rest : List Operand} (stack : machine.frame.stack = top :: rest)
    (stopped : (machine.withStack rest).check answer = .error (stop, left)) :
    machine.Stops command stop left := by
  obtain ⟨fault, rfl, rfl⟩ := check_error stopped
  exact .fault (.inr ⟨top, rest, stack, rfl⟩)

private theorem pop_stops {role : Operand → Except Fault α} {stop : Stop}
    (stopped : machine.pop role = .error (stop, left)) : machine.Stops command stop left := by
  cases stack : machine.frame.stack with
  | nil =>
    rw [pop_nil role stack] at stopped
    cases stopped
    exact .fault (.inl rfl)
  | cons top rest =>
    rw [pop_cons role stack] at stopped
    split at stopped
    · cases stopped
    · cases stopped
      exact .fault (.inr ⟨top, rest, stack, rfl⟩)

private theorem popRole_stops {stop : Stop} (stopped : machine.popRole = .error (stop, left)) :
    machine.Stops command stop left := by
  rcases bind_error stopped with popped | ⟨⟨id, middle⟩, popped, later⟩
  · exact pop_stops popped
  · obtain ⟨rest, stack, rfl⟩ := popCell_ok_iff.mp popped
    rcases bind_error later with refused | ⟨store, -, returned⟩
    · exact check_stops_below stack refused
    · cases returned

private theorem enqueueCall_stops {name : String} {rest : List Operand} {stop : Stop}
    (stack : machine.frame.stack = .literal name :: rest)
    (stopped : (machine.withStack rest).enqueueCall name = .error (stop, left)) :
    machine.Stops .pushFunc stop left := by
  simp only [enqueueCall] at stopped
  split at stopped
  · split at stopped
    · rename_i fault store raised
      cases stopped
      exact .dangling stack raised
    · cases stopped
  · rename_i unsound
    cases stopped
    exact .unsound stack (Bool.eq_false_iff.mpr unsound)

/-- A command that does not complete stops in one of these ways. -/
theorem execute_stops {stop : Stop}
    (stopped : machine.execute policy command = .error (stop, left)) :
    machine.Stops command stop left := by
  cases command with
  | dupl =>
    rcases bind_error stopped with refused | ⟨top, -, returned⟩
    · exact check_stops refused
    · cases returned
  | descCall => cases stopped
  | create => cases stopped
  | assign value =>
    rcases bind_error stopped with refused | ⟨target, -, later⟩
    · exact check_stops refused
    · rcases bind_error later with refused | ⟨store, -, returned⟩
      · exact check_stops refused
      · cases returned
  | assignTop =>
    rcases bind_error stopped with popped | ⟨⟨source, middle⟩, popped, reading⟩
    · exact pop_stops popped
    · obtain ⟨rest, stack, rfl⟩ := popCell_ok_iff.mp popped
      rcases bind_error reading with refused | ⟨value, -, looking⟩
      · exact check_stops_below stack refused
      · rcases bind_error looking with refused | ⟨target, -, binding⟩
        · exact check_stops_below stack refused
        · rcases bind_error binding with refused | ⟨store, -, returned⟩
          · exact check_stops_below stack refused
          · cases returned
  | output =>
    rcases bind_error stopped with popped | ⟨⟨id, middle⟩, -, returned⟩
    · exact popRole_stops popped
    · cases returned
  | input =>
    rcases bind_error stopped with popped | ⟨⟨id, middle⟩, -, returned⟩
    · exact popRole_stops popped
    · cases returned
  | push word => cases stopped
  | pushFunc =>
    rcases bind_error stopped with popped | ⟨⟨name, middle⟩, popped, later⟩
    · exact pop_stops popped
    · obtain ⟨rest, stack, rfl⟩ := popName_ok_iff.mp popped
      exact enqueueCall_stops stack later
  | pushParam index =>
    rcases bind_error stopped with refused | ⟨id, -, returned⟩
    · exact check_stops refused
    · cases returned
  | pushReturn index =>
    rcases bind_error stopped with refused | ⟨id, -, returned⟩
    · exact check_stops refused
    · cases returned

/-- A call that counts more cells than it lists cannot be enqueued. -/
theorem execute_unsound {name : String} {rest : List Operand}
    (stack : machine.frame.stack = .literal name :: rest)
    (unsound : machine.frame.call.isSound = false) :
    machine.execute policy .pushFunc = .error (.unsoundCall, machine.withStack rest) := by
  have same : (machine.withStack rest).frame.call.isSound = false := unsound
  simp [execute, popName, pop_cons Operand.asName stack, Operand.asName, bind, Except.bind,
    enqueueCall, same]

/-- With live shared cells, a command that stops has changed neither the store nor the
queue. -/
theorem execute_spares (live : ∀ id ∈ machine.frame.call.shared, machine.store.contains id = true)
    {stop : Stop} (stopped : machine.execute policy command = .error (stop, left)) :
    machine.Spares left := by
  cases execute_stops stopped with
  | fault spares => exact spares
  | dangling stack raised =>
    obtain ⟨store, done, -⟩ := Store.increfAll_live machine.frame.call.shared live
    cases done.symm.trans raised
  | unsound stack unsound => exact .inr ⟨_, _, stack, rfl⟩

/-- With kept books the shared cells are live. -/
theorem shared_live {calls : Nat} {dropped : List CellId} (kept : machine.Kept calls dropped) :
    ∀ id ∈ machine.frame.call.shared, machine.store.contains id = true := by
  intro id shared
  have listed : id ∈ machine.frame.call.task.cells :=
    machine.frame.call.cells_perm.mem_iff.mpr (List.mem_append.mpr (.inl shared))
  refine (kept.held machine.frame rfl).live id ?_
  exact List.mem_append.mpr (.inl (List.mem_append.mpr (.inr listed)))

end Dataflow.Machine
