import Dataflow.Json.Escape
import Dataflow.Json.Value

/-! Reading JSON text. The grammar is the strict one: no comments, no trailing
commas, no leading zeros, nothing after the value but white space. Every reader
returns what it read and the text that follows. -/
namespace Dataflow.Json

def isSpace (c : Char) : Bool :=
  c == ' ' || c == '\t' || c == '\n' || c == '\r'

def skipSpace (text : List Char) : List Char := text.dropWhile isSpace

/-- Put characters in front of what was read. -/
def after (lead : List Char) : Option (List Char × List Char) → Option (List Char × List Char)
  | some (read, rest) => some (lead ++ read, rest)
  | none => none

/-- The characters of a string up to its closing quote, which is dropped. -/
def stringBody : List Char → Option (List Char × List Char)
  | [] => none
  | '"' :: rest => some ([], rest)
  | '\\' :: 'u' :: a :: b :: c :: d :: rest =>
    if (unit? a b c d).isSome then after ['\\', 'u', a, b, c, d] (stringBody rest) else none
  | '\\' :: c :: rest =>
    if (shortEscape? c).isSome then after ['\\', c] (stringBody rest) else none
  | c :: rest => if isControl c || c == '\\' then none else after [c] (stringBody rest)

/-- As many digits as there are. -/
def digitRun (text : List Char) : List Char × List Char :=
  (text.takeWhile Char.isDigit, text.dropWhile Char.isDigit)

/-- One digit or more. -/
def someDigits (text : List Char) : Option (List Char × List Char) :=
  match digitRun text with
  | ([], _) => none
  | run => some run

/-- A zero alone, or digits that do not start with zero. -/
def wholePart : List Char → Option (List Char × List Char)
  | '0' :: rest => some (['0'], rest)
  | text => someDigits text

/-- A point and digits, if there is a point. -/
def fraction : List Char → Option (List Char × List Char)
  | '.' :: rest => after ['.'] (someDigits rest)
  | text => some ([], text)

/-- A power of ten, if there is a mark for one. -/
def exponent : List Char → Option (List Char × List Char)
  | mark :: rest =>
    if mark = 'e' ∨ mark = 'E' then
      match rest with
      | '+' :: rest => after [mark, '+'] (someDigits rest)
      | '-' :: rest => after [mark, '-'] (someDigits rest)
      | rest => after [mark] (someDigits rest)
    else some ([], mark :: rest)
  | [] => some ([], [])

def unsignedNumber (text : List Char) : Option (List Char × List Char) :=
  match wholePart text with
  | none => none
  | some (whole, rest) =>
    match fraction rest with
    | none => none
    | some (decimals, rest) => after (whole ++ decimals) (exponent rest)

def numberLexeme : List Char → Option (List Char × List Char)
  | '-' :: rest => after ['-'] (unsignedNumber rest)
  | text => unsignedNumber text

/-- A value that is a single token. -/
def scalar : List Char → Option (Json × List Char)
  | '"' :: rest => (stringBody rest).map fun (raw, rest) => (.string raw, rest)
  | 'n' :: 'u' :: 'l' :: 'l' :: rest => some (.null, rest)
  | 't' :: 'r' :: 'u' :: 'e' :: rest => some (.bool true, rest)
  | 'f' :: 'a' :: 'l' :: 's' :: 'e' :: rest => some (.bool false, rest)
  | text => (numberLexeme text).map fun (lexeme, rest) => (.number lexeme, rest)

/-- The key of a member and the colon after it. -/
def memberKey (text : List Char) : Option (List Char × List Char) :=
  match skipSpace text with
  | '"' :: rest =>
    match stringBody rest with
    | some (raw, rest) =>
      match skipSpace rest with
      | ':' :: rest => some (raw, rest)
      | _ => none
    | none => none
  | _ => none

mutual

/-- One value. Each nested call spends a unit of fuel. -/
def value : Nat → List Char → Option (Json × List Char)
  | 0, _ => none
  | fuel + 1, text =>
    match skipSpace text with
    | '[' :: rest =>
      match skipSpace rest with
      | ']' :: rest => some (.array [], rest)
      | _ => (items fuel rest).map fun (items, rest) => (.array items, rest)
    | '\x7b' :: rest =>
      match skipSpace rest with
      | '\x7d' :: rest => some (.object [], rest)
      | _ => (members fuel rest).map fun (members, rest) => (.object members, rest)
    | token => scalar token

/-- One item or more, up to the closing bracket. -/
def items : Nat → List Char → Option (List Json × List Char)
  | 0, _ => none
  | fuel + 1, text =>
    match value fuel text with
    | none => none
    | some (item, rest) =>
      match skipSpace rest with
      | ',' :: rest => (items fuel rest).map fun (later, rest) => (item :: later, rest)
      | ']' :: rest => some ([item], rest)
      | _ => none

/-- One member or more, up to the closing brace. -/
def members : Nat → List Char → Option (List (List Char × Json) × List Char)
  | 0, _ => none
  | fuel + 1, text =>
    match memberKey text with
    | none => none
    | some (key, rest) =>
      match value fuel rest with
      | none => none
      | some (item, rest) =>
        match skipSpace rest with
        | ',' :: rest =>
          (members fuel rest).map fun (later, rest) => ((key, item) :: later, rest)
        | '\x7d' :: rest => some ([(key, item)], rest)
        | _ => none

end

/-- Read a whole text. Every bracket, brace, comma and colon starts at most two
nested calls, so twice the length is enough fuel. -/
def read (text : List Char) : Option Json :=
  match value (2 * text.length + 2) text with
  | some (json, rest) => if (skipSpace rest).isEmpty then some json else none
  | none => none

end Dataflow.Json
