import Dataflow.Json.Escape
import Dataflow.Json.Reader
import Dataflow.Json.Writer
import Dataflow.Text.Decimal

/-! Encodings of types as JSON values, and the rules for records and variants.
A record is an object with its fields in any order, or an array of all fields
in the order of declaration; members with other keys are passed over. A variant
is its name, or an object whose only key is the name. -/
namespace Dataflow

class Encoded (α : Type) where
  encode : α → Json
  decode : Json → Option α

namespace Json

open Encoded

def ofText (text : String) : Json := .string (escape text.toList)

def text? : Json → Option String
  | .string raw => (unescape raw).map String.ofList
  | _ => none

def natural? : Json → Option Nat
  | .number lexeme => Decimal.natural? lexeme
  | _ => none

/-- A number without fraction and exponent. Zero has no minus sign. -/
def integer? : Json → Option Int
  | .number ('-' :: digits) =>
    match Decimal.natural? digits with
    | some 0 => none
    | some n => some (-(n : Int))
    | none => none
  | .number lexeme => (Decimal.natural? lexeme).map fun n => (n : Int)
  | _ => none

instance : Encoded Bool where
  encode := .bool
  decode
    | .bool value => some value
    | _ => none

instance : Encoded UInt64 where
  encode n := .number (Decimal.digits n.toNat)
  decode json := json.natural?.bind Decimal.word?

instance : Encoded UInt32 where
  encode n := .number (Decimal.digits n.toNat)
  decode json := json.natural?.bind fun n => if n < UInt32.size then some (.ofNat n) else none

instance : Encoded Int64 where
  encode n := .number (Decimal.signedDigits n.toInt)
  decode json := json.integer?.bind Decimal.value?

instance : Encoded String where
  encode := ofText
  decode := text?

instance [Encoded α] : Encoded (Option α) where
  encode
    | some value => encode value
    | none => .null
  decode
    | .null => some none
    | json => (decode json).map some

instance [Encoded α] : Encoded (List α) where
  encode values := .array (values.map encode)
  decode
    | .array items => items.mapM decode
    | _ => none

/-- An object with the given keys, none of which needs an escape. -/
def record (fields : List (String × Json)) : Json :=
  .object (fields.map fun (name, json) => (name.toList, json))

/-- The value of a key that may come at most once: the inner option is `none`
if the key is absent. -/
def member? (members : List (List Char × Json)) (name : String) : Option (Option Json) :=
  match members.filter (·.1 == name.toList) with
  | [] => some none
  | [(_, json)] => some (some json)
  | _ => none

/-- The values of a record's fields, in the order of `names`. -/
def fields? (names : List String) : Json → Option (List (Option Json))
  | .object members => do
    let members ← members.mapM fun (key, json) => (unescape key).map (·, json)
    names.mapM (member? members)
  | .array items => if items.length = names.length then some (items.map some) else none
  | _ => none

/-- A field that has to be there. -/
def required [Encoded α] : Option Json → Option α
  | some json => decode json
  | none => none

/-- A field that is empty if it is absent. -/
def optional [Encoded α] : Option Json → Option (Option α)
  | some json => decode json
  | none => some none

/-- The name of a variant and its data, if it has any. -/
def variant? : Json → Option (String × Option Json)
  | .string raw => (unescape raw).map fun name => (.ofList name, none)
  | .object [(key, json)] => (unescape key).map fun name => (.ofList name, some json)
  | _ => none

/-- A variant without data, or with `null` in its place. -/
def plain (value : α) : Option Json → Option α
  | none => some value
  | some .null => some value
  | _ => none

/-- A variant with data. -/
def carrying [Encoded α] (make : α → β) : Option Json → Option β
  | some json => (decode json).map make
  | none => none

end Json

/-- The compact text of a value. -/
def Encoded.toCompact [Encoded α] (value : α) : String :=
  .ofList (Encoded.encode value).compact

/-- The text of a value in lines. -/
def Encoded.toPretty [Encoded α] (value : α) : String :=
  .ofList ((Encoded.encode value).pretty 0)

/-- The value that a text denotes. -/
def Encoded.ofText? (α : Type) [Encoded α] (text : String) : Option α :=
  (Json.read text.toList).bind Encoded.decode

end Dataflow
