import Dataflow.Engine

/-! Options of the command line. Flags may stand anywhere among the other words;
a flag that takes a value takes the next word, whatever it is, and of several
values the last one counts. -/
namespace Dataflow.CommandLine

structure Options where
  verbose : Bool
  trace : Bool
  strictReads : Bool
  leakDetector : Bool
  entry : String
  maxSteps : Option UInt64
  checkpoint : Option String
  resume : Option String
deriving DecidableEq

inductive UsageError where
  | missingValue (flag : String)
  | maxSteps
deriving DecidableEq

def UsageError.message : UsageError → String
  | .missingValue flag => "Usage: cellflow <file.cf> " ++ flag ++ " <value>"
  | .maxSteps => "Error: --max-steps expects a non-negative integer."

/-- Flags that take no value. -/
def switches : List String := ["--verbose", "--trace", "--strict-reads", "--leak-detector"]

/-- The last value of a flag, and the words that are neither the flag nor a
value of it. -/
def takeValue (flag : String) : List String → Except UsageError (Option String × List String)
  | [] => .ok (none, [])
  | [word] => if word = flag then .error (.missingValue flag) else .ok (none, [word])
  | word :: value :: rest =>
    if word = flag then
      (takeValue flag rest).map fun (later, others) => (some (later.getD value), others)
    else
      (takeValue flag (value :: rest)).map fun (found, others) => (found, word :: others)

/-- A number of steps, if one is given. -/
def stepCount : Option String → Except UsageError (Option UInt64)
  | none => .ok none
  | some text =>
    match (Decimal.unsigned? text.toList).bind Decimal.word? with
    | some count => .ok (some count)
    | none => .error .maxSteps

/-- The options among some words, and the words that are left. -/
def Options.parse (words : List String) : Except UsageError (Options × List String) := do
  let given (switch : String) := words.contains switch
  let words := words.filter (!switches.contains ·)
  let (entry, words) ← takeValue "--entry" words
  let (maxSteps, words) ← takeValue "--max-steps" words
  let maxSteps ← stepCount maxSteps
  let (checkpoint, words) ← takeValue "--checkpoint" words
  let (resume, words) ← takeValue "--resume" words
  let options := {
    verbose := given "--verbose"
    trace := given "--trace"
    strictReads := given "--strict-reads"
    leakDetector := given "--leak-detector"
    entry := entry.getD Engine.entryPoint
    maxSteps := maxSteps
    checkpoint := checkpoint
    resume := resume }
  return (options, words)

/-- What the words that are left ask for. -/
inductive Action where
  | help
  | run (path : String)
  | list (path : String)
  /-- The command needs a file. -/
  | noFile (command : String)
  | unknown (word : String)
deriving DecidableEq

/-- Whether the last name on a path ends in `.cf` after at least one character.
Empty names and single dots are no names. -/
def isProgramFile (path : String) : Bool :=
  let names := (path.toList.splitOn '/').filter fun name => name != [] && name != ['.']
  match names.getLast? with
  | none => false
  | some name =>
    match name.reverse with
    | 'f' :: 'c' :: '.' :: _ :: _ => true
    | _ => false

def Action.ofWords : List String → Action
  | [] => .help
  | word :: rest =>
    if isProgramFile word then .run word
    else
      match word, rest with
      | "-h", _ => .help
      | "--help", _ => .help
      | "help", _ => .help
      | "run", path :: _ => .run path
      | "run", [] => .noFile word
      | "commands", path :: _ => .list path
      | "commands", [] => .noFile word
      | _, _ => .unknown word

def helpLines : List String :=
  ["cellflow CLI",
   "",
   "Usage:",
   "  cellflow <file.cf>",
   "  cellflow run <file.cf>",
   "  cellflow commands <file.cf>",
   "",
   "Flags:",
   "  --verbose            Log task dispatch and collection (RUST_LOG overrides)",
   "  --trace              Log every executed command",
   "  --strict-reads       Fail on reads of unbound cells instead of reading 0",
   "  --leak-detector      Print live cells and store counters after the run",
   "  --entry <name>       Entry-point function (default: #main)",
   "  --max-steps <n>      Stop after n steps",
   "  --checkpoint <file>  Write the final engine state as JSON",
   "  --resume <file>      Continue from a checkpoint instead of seeding the entry point",
   "  -h, --help           Show this help message"]

def helpText : String := String.join (helpLines.map (· ++ "\n"))

end Dataflow.CommandLine
