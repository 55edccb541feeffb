import Dataflow.CommandLine.Log
import Dataflow.CommandLine.Session
import Dataflow.Engine.Journal
import Dataflow.Primitives.Standard
import Dataflow.Snapshot.Encoding

/-! The program behind the command line, as a session. -/
namespace Dataflow.CommandLine

open Session

/-- How the program ends. -/
inductive Exit where
  | status (code : UInt8)
  /-- The running frame broke a rule that no run breaks. -/
  | crash
  /-- The fuel was used up. -/
  | unfinished
deriving DecidableEq

/-- Print one line of complaint and end. -/
def complain (code : UInt8) (line : String) : Session Exit := do
  putLine .err line
  return .status code

def withProgram (path : String) (next : Program → Session Exit) : Session Exit :=
  .read path fun
    | .error error => complain 1 ("Error reading " ++ path ++ ": " ++ error.message)
    | .ok source =>
      match Source.parse source with
      | .error error => complain 1 (path ++ ": " ++ error.message)
      | .ok program => next program

/-- The engine that a checkpoint describes, or why it cannot be resumed. -/
def restore (program : Program) (text : String) : Except Error (Engine Console) :=
  (Snapshot.ofText text).bind (Engine.resume program .unlimited)

/-- Start from the checkpoint if there is one, and from the entry point if not. -/
def withEngine (options : Options) (program : Program)
    (next : Engine Console → Session Exit) : Session Exit :=
  match options.resume with
  | none => next ((Engine.ofProgram program .unlimited).seed options.entry)
  | some path =>
    .read path fun
      | .error error => complain 1 ("Error resuming from " ++ path ++ ": " ++ error.message)
      | .ok text =>
        match restore program text with
        | .error error => complain 1 ("Error resuming from " ++ path ++ ": " ++ error.message)
        | .ok engine => next engine

/-- Why the engine is not stepped any further. -/
inductive Ending where
  | outOfBudget
  | finished
  | stalled (pending : Nat)
  | failed (error : Error)
deriving DecidableEq

/-- What is said when stepping ends. Errors are reported later. -/
def Ending.notice? (steps : UInt64) : Ending → Option String
  | .outOfBudget =>
    some ("stopped after step budget (" ++ Decimal.wordText steps ++ " steps total)")
  | .stalled pending =>
    some ("stalled: " ++ Decimal.natText pending ++ " task(s) can never become ready")
  | _ => none

/-- Print what the primitives have written since the last time. -/
def flush (engine : Engine Console) : Session (Engine Console) :=
  if engine.host.text.isEmpty then .done engine
  else .print .out engine.host.text fun _ => .done { engine with host := engine.host.drained }

def logEvents (verbosity : Verbosity) (events : List Event) : Session Unit :=
  putLines .err ((events.filter verbosity.admits).map logLine)

/-- Step the engine until it cannot go on or the budget is spent. -/
def drive (verbosity : Verbosity) :
    Nat → Option UInt64 → Engine Console → Session (Except Exit (Ending × Engine Console))
  | 0, _, _ => return .error .unfinished
  | fuel + 1, budget, engine =>
    if budget = some 0 then return .ok (.outOfBudget, engine)
    else do
      logEvents verbosity (engine.stepJournal .standard)
      let (reply, after) := engine.step .standard
      let after ← flush after
      match reply with
      | .ok .done => return .ok (.finished, after)
      | .ok (.stalled pending) => return .ok (.stalled pending, after)
      | .ok _ => drive verbosity fuel (budget.map (· - 1)) after
      | .error (.error error) => return .ok (.failed error, after)
      | .error .unsoundCall => return .error .crash

private def flag (value : Bool) : String := if value then "true" else "false"

private def cellLine (id : CellId) (cell : Cell) : String :=
  "  cell " ++ Decimal.wordText id ++ ": bound=" ++ flag cell.bound ++ " value=" ++
    Decimal.valueText cell.value ++ " refs=" ++ Decimal.wordText cell.refs

/-- The counters of the store and every live cell. -/
def leakReport (store : Store) (pending : Nat) : List String :=
  ("Leak stats: live_cells=" ++ Decimal.natText store.size ++ " allocations=" ++
    Decimal.wordText store.allocations ++ " collections=" ++ Decimal.wordText store.collections ++
    " collected=" ++ Decimal.wordText store.collected ++ " pending_tasks=" ++
    Decimal.natText pending) ::
    store.cells.entries.map fun (id, cell) => cellLine id cell

def errorReport (error : Error) : List String :=
  ("Error: " ++ error.message) ::
    (error.fault?.map fun fault => "  caused by: " ++ fault.message).toList

/-- The report after a run: leaks if asked for, then the error if there is one. -/
def conclude (options : Options) (ending : Ending) (engine : Engine Console) : Session Exit := do
  if options.leakDetector then
    putLines .err (leakReport engine.store engine.queue.size)
  match ending with
  | .failed error =>
    putLines .err (errorReport error)
    return .status 1
  | _ => return .status 0

/-- Write the checkpoint if one is asked for, then report. -/
def checkpoint (options : Options) (ending : Ending) (engine : Engine Console) : Session Exit :=
  match options.checkpoint with
  | none => conclude options ending engine
  | some path =>
    .write path engine.snapshot.toText fun
      | .ok () => conclude options ending engine
      | .error error =>
        complain 1 ("Error writing checkpoint " ++ path ++ ": " ++ error.message)

/-- Apply the policy that the options ask for. -/
def configured (options : Options) (engine : Engine Console) : Engine Console :=
  if options.strictReads then engine.setPolicy .strict else engine

def runFile (fuel : Nat) (verbosity : Verbosity) (options : Options) (path : String) :
    Session Exit :=
  withProgram path fun program =>
    withEngine options program fun engine => do
      match ← drive verbosity fuel options.maxSteps (configured options engine) with
      | .error exit => return exit
      | .ok (ending, engine) =>
        putLines .err (ending.notice? engine.steps).toList
        checkpoint options ending engine

def listFile (path : String) : Session Exit :=
  withProgram path fun program => do
    put .out program.listing
    putLine .out ("; fingerprint " ++ program.fingerprint)
    return .status 0

def perform (fuel : Nat) (setting : Option String) (options : Options) : Action → Session Exit
  | .help => do
    putLine .out helpText
    return .status 0
  | .run path => runFile fuel (.choose setting options) options path
  | .list path => listFile path
  | .noFile command => complain 2 ("Usage: cellflow " ++ command ++ " <file.cf>")
  | .unknown word => do
    putLine .err ("Error: unknown command `" ++ word ++ "`")
    putLine .out helpText
    return .status 2

/-- The whole program, given the log setting of the environment and the words
of the command line. A run takes at most `fuel` steps. -/
def session (fuel : Nat) (setting : Option String) (words : List String) : Session Exit :=
  match Options.parse words with
  | .error error => complain 2 error.message
  | .ok (options, words) => perform fuel setting options (.ofWords words)

end Dataflow.CommandLine
