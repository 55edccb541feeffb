import Dataflow.Json.Encoding
import Dataflow.Snapshot

/-! The JSON form of a snapshot and of all its parts. Field and variant names
are those of the file format. -/
namespace Dataflow

open Encoded

instance : Encoded Command where
  encode
    | .dupl => .ofText "Dupl"
    | .descCall => .ofText "DescCall"
    | .create => .ofText "Create"
    | .assign value => .record [("Assign", encode value)]
    | .assignTop => .ofText "AssignTop"
    | .output => .ofText "Return"
    | .input => .ofText "Input"
    | .push word => .record [("Push", encode word)]
    | .pushFunc => .ofText "PushFunc"
    | .pushParam index => .record [("PushParam", encode index)]
    | .pushReturn index => .record [("PushReturn", encode index)]
  decode json := do
    let (name, data) ← json.variant?
    match name with
    | "Dupl" => Json.plain .dupl data
    | "DescCall" => Json.plain .descCall data
    | "Create" => Json.plain .create data
    | "Assign" => Json.carrying .assign data
    | "AssignTop" => Json.plain .assignTop data
    | "Return" => Json.plain .output data
    | "Input" => Json.plain .input data
    | "Push" => Json.carrying .push data
    | "PushFunc" => Json.plain .pushFunc data
    | "PushParam" => Json.carrying .pushParam data
    | "PushReturn" => Json.carrying .pushReturn data
    | _ => none

instance : Encoded Operand where
  encode
    | .cell id => .record [("Cell", encode id)]
    | .literal word => .record [("Literal", encode word)]
  decode json := do
    let (name, data) ← json.variant?
    match name with
    | "Cell" => Json.carrying .cell data
    | "Literal" => Json.carrying .literal data
    | _ => none

instance : Encoded ReadPolicy where
  encode
    | .lenient => .ofText "Lenient"
    | .strict => .ofText "Strict"
  decode json := do
    let (name, data) ← json.variant?
    match name with
    | "Lenient" => Json.plain .lenient data
    | "Strict" => Json.plain .strict data
    | _ => none

instance : Encoded Cell where
  encode cell :=
    .record [("bound", encode cell.bound), ("value", encode cell.value), ("refs", encode cell.refs)]
  decode json := do
    match ← json.fields? ["bound", "value", "refs"] with
    | [bound, value, refs] =>
      return ⟨← Json.required bound, ← Json.required value, ← Json.required refs⟩
    | _ => none

/-- The id that a key of the cell map spells, without sign or leading zeros. -/
def CellMap.key? (raw : List Char) : Option CellId := do
  let n ← Decimal.natural? raw
  if Decimal.digits n = raw then Decimal.word? n else none

/-- Of two cells with the same id, the later one counts. -/
instance : Encoded CellMap where
  encode cells :=
    .object (cells.entries.map fun (id, cell) => (Decimal.digits id.toNat, encode cell))
  decode
    | .object members => do
      let entries ← members.mapM fun (key, json) => do
        return (← CellMap.key? key, ← decode json)
      return .ofList entries
    | _ => none

instance : Encoded Store where
  encode store :=
    .record [("cells", encode store.cells), ("total_allocations", encode store.allocations),
      ("total_collections", encode store.collections),
      ("total_collected", encode store.collected)]
  decode json := do
    match ← json.fields?
      ["cells", "total_allocations", "total_collections", "total_collected"] with
    | [cells, allocations, collections, collected] =>
      return ⟨← Json.required cells, ← Json.required allocations, ← Json.required collections,
        ← Json.required collected⟩
    | _ => none

instance : Encoded Task where
  encode task :=
    .record [("name", encode task.name), ("inputs", encode task.inputs),
      ("outputs", encode task.outputs)]
  decode json := do
    match ← json.fields? ["name", "inputs", "outputs"] with
    | [name, inputs, outputs] =>
      return ⟨← Json.optional name, ← Json.required inputs, ← Json.required outputs⟩
    | _ => none

instance : Encoded Queue where
  encode queue := .record [("tasks", encode queue.tasks)]
  decode json := do
    match ← json.fields? ["tasks"] with
    | [tasks] => return ⟨← Json.required tasks⟩
    | _ => none

instance : Encoded Call where
  encode call :=
    .record [("descriptor", encode call.task), ("shared_inputs", encode call.sharedInputs),
      ("shared_outputs", encode call.sharedOutputs)]
  decode json := do
    match ← json.fields? ["descriptor", "shared_inputs", "shared_outputs"] with
    | [task, sharedInputs, sharedOutputs] =>
      return ⟨← Json.required task, ← Json.required sharedInputs, ← Json.required sharedOutputs⟩
    | _ => none

/-- The stack is written from its bottom to its top. -/
instance : Encoded Frame where
  encode frame :=
    .record [("task", encode frame.task), ("ip", encode frame.position),
      ("stack", encode frame.stack.reverse), ("call", encode frame.call)]
  decode json := do
    match ← json.fields? ["task", "ip", "stack", "call"] with
    | [task, position, stack, call] =>
      let stack : List Operand ← Json.required stack
      return ⟨← Json.required task, ← Json.required position, stack.reverse,
        ← Json.required call⟩
    | _ => none

instance : Encoded Snapshot where
  encode snapshot :=
    .record [("version", encode snapshot.version), ("program", encode snapshot.program),
      ("read_policy", encode snapshot.policy), ("steps", encode snapshot.steps),
      ("memory", encode snapshot.store), ("tasks", encode snapshot.queue),
      ("frame", encode snapshot.frame)]
  decode json := do
    match ← json.fields?
      ["version", "program", "read_policy", "steps", "memory", "tasks", "frame"] with
    | [version, program, policy, steps, store, queue, frame] =>
      return ⟨← Json.required version, ← Json.required program, ← Json.required policy,
        ← Json.required steps, ← Json.required store, ← Json.required queue,
        ← Json.optional frame⟩
    | _ => none

/-- The text of a snapshot file. -/
def Snapshot.toText (snapshot : Snapshot) : String := toPretty snapshot

/-- Read a snapshot file. -/
def Snapshot.ofText (text : String) : Except Error Snapshot :=
  match Encoded.ofText? Snapshot text with
  | some snapshot => .ok snapshot
  | none => .error .invalidSnapshot

end Dataflow
