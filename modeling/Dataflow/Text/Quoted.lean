import Dataflow.Text.Hidden

/-! Texts between double quotes, in which every character can be told. -/
namespace Dataflow.Text

/-- The code of a character in lower-case hexadecimal, between braces. -/
def codeEscape (c : Char) : List Char :=
  ['\\', 'u', '\x7b'] ++ Nat.toDigits 16 c.toNat ++ ['\x7d']

def showChar (c : Char) : List Char :=
  match c with
  | '\x00' => ['\\', '0']
  | '\t' => ['\\', 't']
  | '\n' => ['\\', 'n']
  | '\r' => ['\\', 'r']
  | '"' => ['\\', '"']
  | '\\' => ['\\', '\\']
  | c => if c.toNat < 0x20 || isHidden c then codeEscape c else [c]

def quote (text : String) : String :=
  .ofList ('"' :: (text.toList.flatMap showChar ++ ['"']))

end Dataflow.Text
