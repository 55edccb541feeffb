import Dataflow.Program
import Dataflow.Source.Line

/-! Reading a program. A function is a block of lines between `start`, which
gives its name, and `finish`. The first line that cannot be read ends the
reading; a block that is still open at the end is reported where it starts. -/
namespace Dataflow.Source

/-- What is wrong with the blocks of a program. -/
inductive Malformed where
  /-- A block starts inside the block `name` that started at line `opened`. -/
  | nested (name : String) (opened : Nat)
  | startName
  | finishParameters
  | unmatchedFinish
  | duplicate (name : String)
  | unreadable (name : String) (error : Command.Error)
  | outside (command : Command)
  | unfinished (name : String)
deriving DecidableEq

def Malformed.message : Malformed → String
  | .nested name opened =>
    "`start` inside function `" ++ name ++ "` opened at line " ++ Decimal.natText opened
  | .startName => "`start` expects exactly one function name"
  | .finishParameters => "`finish` takes no parameters"
  | .unmatchedFinish => "`finish` without a matching `start`"
  | .duplicate name => "function `" ++ name ++ "` is defined twice"
  | .unreadable name error => "`" ++ name ++ "`: " ++ error.message
  | .outside command => "`" ++ command.text ++ "` outside of any function"
  | .unfinished name => "function `" ++ name ++ "` is never finished"

inductive Error where
  | malformed (line : Nat) (reason : Malformed)
  | unknownCommand (line : Nat) (name : String)
deriving DecidableEq

def Error.message : Error → String
  | .malformed line reason =>
    "malformed program at line " ++ Decimal.natText line ++ ": " ++ reason.message
  | .unknownCommand line name =>
    "unknown command `" ++ name ++ "` at line " ++ Decimal.natText line

/-- A block whose `finish` has not been read yet. -/
structure OpenBlock where
  opened : Nat
  function : Function
deriving DecidableEq

/-- The functions read so far and the block that is open, if one is. -/
structure Reading where
  program : Program
  block : Option OpenBlock
deriving DecidableEq

namespace Reading

def start : Reading := ⟨.empty, none⟩

def openLine (reading : Reading) (line : Line) : Except Error Reading :=
  match reading.block with
  | some block => .error (.malformed line.number (.nested block.function.name block.opened))
  | none =>
    match line.params with
    | [name] => .ok { reading with block := some ⟨line.number, ⟨name, []⟩⟩ }
    | _ => .error (.malformed line.number .startName)

def closeLine (reading : Reading) (line : Line) : Except Error Reading :=
  if !line.params.isEmpty then .error (.malformed line.number .finishParameters)
  else
    match reading.block with
    | none => .error (.malformed line.number .unmatchedFinish)
    | some block =>
      match reading.program.insert block.function with
      | .ok program => .ok ⟨program, none⟩
      | .error function => .error (.malformed line.number (.duplicate function.name))

/-- A command line is decoded before it is asked whether a block is open. -/
def commandLine (reading : Reading) (line : Line) : Except Error Reading :=
  match Command.parse line.name line.params with
  | .error .unknown => .error (.unknownCommand line.number line.name)
  | .error error => .error (.malformed line.number (.unreadable line.name error))
  | .ok command =>
    match reading.block with
    | none => .error (.malformed line.number (.outside command))
    | some block =>
      let function := { block.function with commands := block.function.commands ++ [command] }
      .ok { reading with block := some { block with function := function } }

def line (reading : Reading) (line : Line) : Except Error Reading :=
  if line.name = "start" then reading.openLine line
  else if line.name = "finish" then reading.closeLine line
  else reading.commandLine line

/-- The program that was read, unless a block is still open. -/
def finish (reading : Reading) : Except Error Program :=
  match reading.block with
  | none => .ok reading.program
  | some block => .error (.malformed block.opened (.unfinished block.function.name))

end Reading

/-- Read tokenized lines in order. -/
def parseLines (lines : List Line) : Except Error Program :=
  (lines.foldlM Reading.line Reading.start).bind Reading.finish

/-- Read a program from its source text. -/
def parse (source : String) : Except Error Program :=
  parseLines (tokenize source)

end Dataflow.Source
