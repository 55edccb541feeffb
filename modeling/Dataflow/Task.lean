import Dataflow.Store

/-! Tasks are invocations of functions or primitives. A task is ready when all
of its inputs are bound; the queue keeps pending tasks in the order in which
they were enqueued and loses one only when it is selected. -/
namespace Dataflow

structure Task where
  /-- A task under construction has no name yet. -/
  name : Option String
  inputs : List CellId
  outputs : List CellId
deriving DecidableEq

namespace Task

def blank : Task := ⟨none, [], []⟩

/-- A task that refers to no cells. -/
def named (name : String) : Task := ⟨some name, [], []⟩

def label (task : Task) : String := task.name.getD "<unnamed>"

/-- The cells that the task refers to, one entry for each role. -/
def cells (task : Task) : List CellId := task.inputs ++ task.outputs

def text (task : Task) : String :=
  task.label ++ " inputs=" ++ Decimal.bracketed (task.inputs.map Decimal.wordText) ++
    " outputs=" ++ Decimal.bracketed (task.outputs.map Decimal.wordText)

end Task

/-- Whether all listed cells are bound. The first unbound cell decides, so a
missing cell after it is no fault. -/
def Store.allBound (store : Store) : List CellId → Except Fault Bool
  | [] => .ok true
  | id :: rest =>
    match store.isBound id with
    | .ok true => store.allBound rest
    | .ok false => .ok false
    | .error fault => .error fault

def Task.isReady (task : Task) (store : Store) : Except Fault Bool :=
  store.allBound task.inputs

structure Queue where
  tasks : List Task
deriving DecidableEq

namespace Queue

def empty : Queue := ⟨[]⟩

def push (queue : Queue) (task : Task) : Queue := ⟨queue.tasks ++ [task]⟩

def get? (queue : Queue) (index : Nat) : Option Task := queue.tasks[index]?

/-- The task at an index and the queue without it. -/
def remove? (queue : Queue) (index : Nat) : Option (Task × Queue) :=
  (queue.get? index).map fun task => (task, ⟨queue.tasks.eraseIdx index⟩)

def size (queue : Queue) : Nat := queue.tasks.length

def isEmpty (queue : Queue) : Bool := queue.tasks.isEmpty

end Queue

/-- What the scheduler finds in a queue. The tasks in `skipped` come first in
the queue and are not ready. -/
inductive Selection where
  /-- No task is ready. -/
  | stalled (skipped : List Task)
  /-- This task is the first that is ready. -/
  | ready (skipped : List Task) (task : Task) (later : List Task)
  /-- Whether this task is ready cannot be told. -/
  | undecided (skipped : List Task) (task : Task) (fault : Fault)

namespace Selection

/-- The tasks passed over before the decision. -/
def skipped : Selection → List Task
  | .stalled skipped => skipped
  | .ready skipped _ _ => skipped
  | .undecided skipped _ _ => skipped

/-- The same decision in a queue with one more task in front that is not ready. -/
def skip (task : Task) : Selection → Selection
  | .stalled skipped => .stalled (task :: skipped)
  | .ready skipped found later => .ready (task :: skipped) found later
  | .undecided skipped found fault => .undecided (task :: skipped) found fault

/-- Find the first ready task. -/
def ofTasks (store : Store) : List Task → Selection
  | [] => .stalled []
  | task :: rest =>
    match task.isReady store with
    | .ok true => .ready [] task rest
    | .ok false => (ofTasks store rest).skip task
    | .error fault => .undecided [] task fault

end Selection

def Queue.select (queue : Queue) (store : Store) : Selection :=
  .ofTasks store queue.tasks

end Dataflow
