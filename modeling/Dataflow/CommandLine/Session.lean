/-! A session of the command line as a value: what it asks of its surroundings,
and how it goes on with each answer. Deciding and performing are thereby apart,
and the same session runs against real files or a modelled world. -/
namespace Dataflow.CommandLine

inductive FileError where
  | notFound
  | notDirectory
  | isDirectory
  /-- The bytes are not text. -/
  | notText
  /-- Another failure, in the words of the system. -/
  | other (message : String)
deriving DecidableEq

def FileError.message : FileError → String
  | .notFound => "No such file or directory (os error 2)"
  | .notDirectory => "Not a directory (os error 20)"
  | .isDirectory => "Is a directory (os error 21)"
  | .notText => "stream did not contain valid UTF-8"
  | .other message => message

inductive Stream where
  | out
  | err
deriving DecidableEq

inductive Session (α : Type) where
  | done (result : α)
  | print (stream : Stream) (text : String) (next : Unit → Session α)
  | read (path : String) (next : Except FileError String → Session α)
  | write (path text : String) (next : Except FileError Unit → Session α)

namespace Session

def bind : Session α → (α → Session β) → Session β
  | .done result, next => next result
  | .print stream text rest, next => .print stream text fun reply => (rest reply).bind next
  | .read path rest, next => .read path fun reply => (rest reply).bind next
  | .write path text rest, next => .write path text fun reply => (rest reply).bind next

instance : Monad Session where
  pure := .done
  bind := bind

def put (stream : Stream) (text : String) : Session Unit :=
  .print stream text fun _ => .done ()

def putLine (stream : Stream) (text : String) : Session Unit :=
  put stream (text ++ "\n")

/-- Print each line in order. -/
def putLines (stream : Stream) : List String → Session Unit
  | [] => .done ()
  | line :: rest => .print stream (line ++ "\n") fun _ => putLines stream rest

end Session

end Dataflow.CommandLine
