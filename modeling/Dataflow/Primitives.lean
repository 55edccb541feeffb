import Dataflow.Cell

/-! Primitives are operations built into the machine. They turn the values of a
task's inputs into the values of its outputs within a single step, and may keep
a state of their own, such as the text written so far. -/
namespace Dataflow

structure Primitives (σ : Type) where
  provides : σ → String → Bool
  /-- The results or a message, and the state after the call. -/
  invoke : σ → String → List Value → Except String (List Value) × σ

namespace Primitives

/-- Names that start with this marker are looked up as primitives first. -/
def marker : List Char := "#_intrin_".toList

/-- What follows `lead` in a text that starts with it. -/
def strip? : List Char → List Char → Option (List Char)
  | [], text => some text
  | _ :: _, [] => none
  | c :: lead, d :: text => if c = d then strip? lead text else none

/-- The primitive that a marked name asks for. -/
def key? (name : String) : Option String :=
  (strip? marker name.toList).map String.ofList

/-- The same primitives, with a record of all calls in order. -/
def recorded (primitives : Primitives σ) : Primitives (σ × List (String × List Value)) where
  provides state name := primitives.provides state.1 name
  invoke state name values :=
    let (reply, next) := primitives.invoke state.1 name values
    (reply, next, state.2 ++ [(name, values)])

end Primitives

end Dataflow
