import Dataflow.Text.Words

/-! Source lines. A semicolon starts a comment, and a line without words before
it says nothing. -/
namespace Dataflow.Source

structure Line where
  /-- Position in the source, counted from one. -/
  number : Nat
  name : String
  params : List String
deriving DecidableEq

/-- The text of a line before its comment. -/
def code (line : List Char) : List Char :=
  line.takeWhile (· != ';')

def line? (number : Nat) (text : List Char) : Option Line :=
  match (Text.words (code text)).map String.ofList with
  | [] => none
  | name :: params => some ⟨number, name, params⟩

/-- The lines that have words, from the line with this number on. -/
def linesFrom : Nat → List (List Char) → List Line
  | _, [] => []
  | number, text :: rest => (line? number text).toList ++ linesFrom (number + 1) rest

/-- The lines of a source text that have words. -/
def tokenize (source : String) : List Line :=
  linesFrom 1 (Text.lines source.toList)

end Dataflow.Source
