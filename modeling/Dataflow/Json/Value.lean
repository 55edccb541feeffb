/-! JSON values with their spelling. A number keeps the characters it is
written with, and a string keeps what stands between its quotes, escapes
included. What a spelling denotes is decided by whoever needs to know: a value
that nobody asks for may hold a number of any size or half a surrogate pair. -/
namespace Dataflow

inductive Json where
  | null
  | bool (value : Bool)
  | number (lexeme : List Char)
  | string (raw : List Char)
  | array (items : List Json)
  /-- Members in the order of writing; a key may come more than once. -/
  | object (members : List (List Char × Json))

end Dataflow
