import Dataflow.Json.Value

/-! Writing JSON text, either without any white space or with one item or
member on a line, indented by two blanks for each level. -/
namespace Dataflow.Json

def quoted (raw : List Char) : List Char := '"' :: (raw ++ ['"'])

mutual

/-- Text without white space. -/
def compact : Json → List Char
  | .null => ['n', 'u', 'l', 'l']
  | .bool true => ['t', 'r', 'u', 'e']
  | .bool false => ['f', 'a', 'l', 's', 'e']
  | .number lexeme => lexeme
  | .string raw => quoted raw
  | .array items => '[' :: (compactItems items ++ [']'])
  | .object members => '\x7b' :: (compactMembers members ++ ['\x7d'])

def compactItems : List Json → List Char
  | [] => []
  | [item] => item.compact
  | item :: rest => item.compact ++ ',' :: compactItems rest

def compactMembers : List (List Char × Json) → List Char
  | [] => []
  | [(key, item)] => quoted key ++ ':' :: item.compact
  | (key, item) :: rest => quoted key ++ ':' :: (item.compact ++ ',' :: compactMembers rest)

end

/-- A line feed and the indentation of a level. -/
def newline (level : Nat) : List Char := '\n' :: List.replicate (2 * level) ' '

mutual

/-- Text in lines, for a value whose own line is indented to `level`. -/
def pretty (level : Nat) : Json → List Char
  | .null => ['n', 'u', 'l', 'l']
  | .bool true => ['t', 'r', 'u', 'e']
  | .bool false => ['f', 'a', 'l', 's', 'e']
  | .number lexeme => lexeme
  | .string raw => quoted raw
  | .array [] => ['[', ']']
  | .array (item :: rest) =>
    '[' :: (prettyItems (level + 1) (item :: rest) ++ newline level ++ [']'])
  | .object [] => ['\x7b', '\x7d']
  | .object (member :: rest) =>
    '\x7b' :: (prettyMembers (level + 1) (member :: rest) ++ newline level ++ ['\x7d'])

def prettyItems (level : Nat) : List Json → List Char
  | [] => []
  | [item] => newline level ++ item.pretty level
  | item :: rest => newline level ++ item.pretty level ++ ',' :: prettyItems level rest

def prettyMembers (level : Nat) : List (List Char × Json) → List Char
  | [] => []
  | [(key, item)] => newline level ++ quoted key ++ ':' :: ' ' :: item.pretty level
  | (key, item) :: rest =>
    newline level ++ quoted key ++ ':' :: ' ' :: (item.pretty level ++ ',' ::
      prettyMembers level rest)

end

end Dataflow.Json
