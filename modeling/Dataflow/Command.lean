import Dataflow.Cell
import Dataflow.Text.Decimal

/-! Commands are the instructions of a function body. Each has a name and at
most one parameter, which is decoded when the program is read. -/
namespace Dataflow

inductive Command where
  /-- Duplicate the top operand. -/
  | dupl
  /-- Start a new call, forgetting the cells gathered for the previous one. -/
  | descCall
  /-- Allocate an unbound cell and push it. -/
  | create
  /-- Bind a value to the cell on top, which stays there. -/
  | assign (value : Value)
  /-- Pop a cell and copy its value to the cell now on top. -/
  | assignTop
  /-- Pop a cell and add it to the outputs of the call. -/
  | output
  /-- Pop a cell and add it to the inputs of the call. -/
  | input
  /-- Push a word. -/
  | push (word : String)
  /-- Pop a name and enqueue the call under it. -/
  | pushFunc
  /-- Push an input of the running task. -/
  | pushParam (index : UInt64)
  /-- Push an output of the running task. -/
  | pushReturn (index : UInt64)
deriving DecidableEq

namespace Command

/-- What a parameter has to be. -/
inductive Parameter where
  | integer
  | index
deriving DecidableEq

def Parameter.describe : Parameter → String
  | .integer => "an integer literal"
  | .index => "a non-negative index"

/-- Why some words are not a command. -/
inductive Error where
  | unknown
  | arity (expected found : Nat)
  | parameter (expected : Parameter) (found : String)
deriving DecidableEq

def Error.message : Error → String
  | .unknown => "unknown command"
  | .arity expected found =>
    "expected " ++ Decimal.natText expected ++ " parameter(s), found " ++ Decimal.natText found
  | .parameter expected found =>
    "expected " ++ expected.describe ++ ", found `" ++ found ++ "`"

def name : Command → String
  | .dupl => "dupl"
  | .descCall => "desccall"
  | .create => "create"
  | .assign _ => "assign"
  | .assignTop => "assign_top"
  | .output => "return"
  | .input => "input"
  | .push _ => "push"
  | .pushFunc => "push_func"
  | .pushParam _ => "push_param"
  | .pushReturn _ => "push_return"

def parameter? : Command → Option String
  | .assign value => some (Decimal.valueText value)
  | .push word => some word
  | .pushParam index => some (Decimal.wordText index)
  | .pushReturn index => some (Decimal.wordText index)
  | _ => none

/-- The name, then the parameter if there is one. -/
def text (command : Command) : String :=
  match command.parameter? with
  | some parameter => command.name ++ " " ++ parameter
  | none => command.name

/-- A command without parameters. -/
def bare (command : Command) (params : List String) : Except Error Command :=
  if params.isEmpty then .ok command else .error (.arity 0 params.length)

/-- A command made from its only parameter. -/
def ofParameter (decode : String → Except Error Command) : List String → Except Error Command
  | [parameter] => decode parameter
  | params => .error (.arity 1 params.length)

def integer (parameter : String) : Except Error Value :=
  match (Decimal.signed? parameter.toList).bind Decimal.value? with
  | some value => .ok value
  | none => .error (.parameter .integer parameter)

def index (parameter : String) : Except Error UInt64 :=
  match (Decimal.unsigned? parameter.toList).bind Decimal.word? with
  | some index => .ok index
  | none => .error (.parameter .index parameter)

/-- Decode a command. The name is looked up first, then the number of
parameters is checked, then the parameter itself. -/
def parse (name : String) (params : List String) : Except Error Command :=
  match name with
  | "dupl" => bare .dupl params
  | "desccall" => bare .descCall params
  | "create" => bare .create params
  | "assign" => ofParameter (fun parameter => (integer parameter).map .assign) params
  | "assign_top" => bare .assignTop params
  | "return" => bare .output params
  | "input" => bare .input params
  | "push" => ofParameter (fun parameter => .ok (.push parameter)) params
  | "push_func" => bare .pushFunc params
  | "push_param" => ofParameter (fun parameter => (index parameter).map .pushParam) params
  | "push_return" => ofParameter (fun parameter => (index parameter).map .pushReturn) params
  | _ => .error .unknown

end Command

end Dataflow
