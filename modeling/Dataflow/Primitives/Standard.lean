import Dataflow.Primitives
import Dataflow.Text.Decimal

/-! The standard primitives: checked addition and multiplication, and writing a
number on a line of its own. -/
namespace Dataflow

/-- Where the standard primitives write. A console with a capacity refuses to
write once it holds that many lines. -/
structure Console where
  text : String
  capacity : Option Nat
deriving DecidableEq

namespace Console

def unlimited : Console := ⟨"", none⟩

def isFull (console : Console) : Bool :=
  match console.capacity with
  | some capacity => capacity ≤ console.text.toList.count '\n'
  | none => false

/-- The same console with all its text taken away. -/
def drained (console : Console) : Console := { console with text := "" }

end Console

namespace Standard

inductive Operation where
  | add
  | mul
  | putstring
deriving DecidableEq

namespace Operation

def name : Operation → String
  | .add => "add"
  | .mul => "mul"
  | .putstring => "putstring"

/-- Number of values that the operation takes. -/
def arity : Operation → Nat
  | .add => 2
  | .mul => 2
  | .putstring => 1

def ofName? : String → Option Operation
  | "add" => some .add
  | "mul" => some .mul
  | "putstring" => some .putstring
  | _ => none

end Operation

/-- Why a standard primitive fails. -/
inductive Refusal where
  | unknown (name : String)
  | arity (operation : Operation) (found : Nat)
  | sumOverflow (a b : Value)
  | productOverflow (a b : Value)
  | consoleFull
deriving DecidableEq

def Refusal.message : Refusal → String
  | .unknown name => "unknown primitive `" ++ name ++ "`"
  | .arity operation found =>
    operation.name ++ " expects " ++ Decimal.natText operation.arity ++ " input(s), got " ++
      Decimal.natText found
  | .sumOverflow a b =>
    "integer overflow in " ++ Decimal.valueText a ++ " + " ++ Decimal.valueText b
  | .productOverflow a b =>
    "integer overflow in " ++ Decimal.valueText a ++ " * " ++ Decimal.valueText b
  | .consoleFull => "writer is full"

def add (a b : Value) : Except Refusal Value :=
  match Decimal.value? (a.toInt + b.toInt) with
  | some sum => .ok sum
  | none => .error (.sumOverflow a b)

def mul (a b : Value) : Except Refusal Value :=
  match Decimal.value? (a.toInt * b.toInt) with
  | some product => .ok product
  | none => .error (.productOverflow a b)

/-- Write a number and a line feed. -/
def put (console : Console) (value : Value) : Except Refusal Console :=
  if console.isFull then .error .consoleFull
  else .ok { console with text := console.text ++ Decimal.valueText value ++ "\n" }

/-- Run an operation on its values. -/
def perform (operation : Operation) (values : List Value) (console : Console) :
    Except Refusal (List Value × Console) :=
  match operation, values with
  | .add, [a, b] => (add a b).map fun sum => ([sum], console)
  | .mul, [a, b] => (mul a b).map fun product => ([product], console)
  | .putstring, [value] => (put console value).map fun console => ([], console)
  | operation, values => .error (.arity operation values.length)

def call (name : String) (values : List Value) (console : Console) :
    Except Refusal (List Value × Console) :=
  match Operation.ofName? name with
  | some operation => perform operation values console
  | none => .error (.unknown name)

end Standard

/-- The standard primitives, writing to a console. A failed call writes
nothing. -/
def Primitives.standard : Primitives Console where
  provides _ name := (Standard.Operation.ofName? name).isSome
  invoke console name values :=
    match Standard.call name values console with
    | .ok (results, console) => (.ok results, console)
    | .error refusal => (.error refusal.message, console)

end Dataflow
