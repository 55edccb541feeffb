/-! Cutting text. Lines are the pieces between line feeds, words are the nonempty pieces
between blanks, and nothing but separators is ever lost. -/
namespace Dataflow.Text

/-- Blank characters are those with the Unicode property White_Space. -/
def isBlank (c : Char) : Bool :=
  let code := c.toNat
  (0x09 ≤ code && code ≤ 0x0d) || code == 0x20 || code == 0x85 || code == 0xa0 ||
    code == 0x1680 || (0x2000 ≤ code && code ≤ 0x200a) || code == 0x2028 ||
    code == 0x2029 || code == 0x202f || code == 0x205f || code == 0x3000

/-- Lines are separated by line feeds; the text after the last one counts. -/
def lines (text : List Char) : List (List Char) :=
  text.splitOn '\n'

/-- Words are the maximal runs without a blank. -/
def words (text : List Char) : List (List Char) :=
  (text.splitOnP isBlank).filter (!·.isEmpty)

end Dataflow.Text
