import Dataflow.Primitives

/-! Primitives with prepared replies, for running a program apart from any real
effect. -/
namespace Dataflow

/-- What a scripted primitive answers. -/
inductive Reply where
  | fail (message : String)
  /-- Give the input values back. -/
  | echo
  | results (values : List Value)
deriving DecidableEq

def Reply.answer (values : List Value) : Reply → Except String (List Value)
  | .fail message => .error message
  | .echo => .ok values
  | .results values => .ok values

/-- The primitives of a table, and no others. -/
def Primitives.scripted (table : List (String × Reply)) : Primitives Unit where
  provides _ name := (table.lookup name).isSome
  invoke _ name values :=
    match table.lookup name with
    | some reply => (reply.answer values, ())
    | none => (.error ("unknown primitive `" ++ name ++ "`"), ())

end Dataflow
