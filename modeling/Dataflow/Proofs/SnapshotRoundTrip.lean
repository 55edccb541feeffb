import Dataflow.Proofs.LawfulEncoding
import Dataflow.Snapshot.Encoding

/-! Reading a snapshot file gives back the snapshot that was written. Every part
of a snapshot has a lawful encoding; the cells of a store come back because
their ids are written in ascending order, so that inserting them one by one
builds the same map. -/
namespace Dataflow

open Encoded

namespace CellMap

/-- An id above all others goes to the end. -/
theorem place_last {id : CellId} {cell : Cell} {entries : List (CellId × Cell)}
    (above : ∀ entry ∈ entries, entry.1 < id) : place id cell entries = entries ++ [(id, cell)] := by
  induction entries with
  | nil => rfl
  | cons head rest ih =>
    have below := above head List.mem_cons_self
    have notAbove : ¬id < head.1 := UInt64.not_lt.2 (UInt64.le_of_lt below)
    simp [place, below, notAbove, ih fun entry member => above entry (by simp [member])]

private theorem entries_foldl_insert (cells : CellMap) (later : List (CellId × Cell))
    (ascending : (cells.entries ++ later).Pairwise (fun a b => a.1 < b.1)) :
    (later.foldl (fun cells entry => cells.insert entry.1 entry.2) cells).entries =
      cells.entries ++ later := by
  induction later generalizing cells with
  | nil => simp
  | cons entry rest ih =>
    have above : ∀ other ∈ cells.entries, other.1 < entry.1 := fun other member =>
      (List.pairwise_append.mp ascending).2.2 other member entry List.mem_cons_self
    have appended : (cells.insert entry.1 entry.2).entries = cells.entries ++ [entry] :=
      place_last above
    have grown := ih (cells.insert entry.1 entry.2) (by rw [appended]; simpa using ascending)
    rw [List.foldl_cons, grown, appended, List.append_assoc]
    rfl

theorem ofList_entries (cells : CellMap) : ofList cells.entries = cells := by
  apply ext
  simpa [ofList, empty] using entries_foldl_insert empty cells.entries (by
    simpa [empty] using cells.ascending)

theorem key?_digits (id : CellId) : key? (Decimal.digits id.toNat) = some id := by
  simp [key?, Decimal.natural?_digits, Decimal.word?_toNat]

end CellMap

instance : Lawful Command where
  decode_encode command := by
    cases command with
    | assign value => exact Json.bind_variant?_record (Json.carrying_encode _ value) (by decide)
    | push word => exact Json.bind_variant?_record (Json.carrying_encode _ word) (by decide)
    | pushParam index | pushReturn index =>
      exact Json.bind_variant?_record (Json.carrying_encode _ index) (by decide)
    | dupl | descCall | create | assignTop | output | input | pushFunc => rfl
  canonical command := by
    cases command with
    | assign _ | push _ | pushParam _ | pushReturn _ =>
      exact Json.canonical_variant (by decide) (canonical _)
    | dupl | descCall | create | assignTop | output | input | pushFunc => exact .string _

instance : Lawful Operand where
  decode_encode operand := by
    cases operand with
    | cell id => exact Json.bind_variant?_record (Json.carrying_encode _ id) (by decide)
    | literal word => exact Json.bind_variant?_record (Json.carrying_encode _ word) (by decide)
  canonical operand := by
    cases operand with
    | cell _ | literal _ => exact Json.canonical_variant (by decide) (canonical _)

instance : Lawful ReadPolicy where
  decode_encode policy := by
    cases policy with
    | lenient | strict => rfl
  canonical policy := by
    cases policy with
    | lenient | strict => exact .string _

instance : Lawful Cell :=
  Json.lawful_record (fun _ => rfl) (fun _ => rfl) (fun _ => rfl) (by decide) (by decide) (by simp)
    (by simp [canonical])

instance : Lawful CellMap where
  decode_encode cells := by
    have back := mapM_map_eq_some (h := id)
      (g := fun entry : CellId × Cell => (Decimal.digits entry.1.toNat, encode entry.2))
      (f := fun member => do return (← CellMap.key? member.1, ← decode member.2))
      cells.entries fun entry _ => by simp [CellMap.key?_digits]
    rw [List.map_id] at back
    calc
      decode (encode cells) = some (CellMap.ofList cells.entries) :=
        congrArg (· >>= fun entries => some (CellMap.ofList entries)) back
      _ = some cells := congrArg some (CellMap.ofList_entries cells)
  canonical cells := by
    apply Json.Canonical.object
    · intro member listed
      obtain ⟨entry, -, rfl⟩ := List.mem_map.mp listed
      exact ⟨_, (Json.escape_digits entry.1.toNat).symm⟩
    · intro member listed
      obtain ⟨entry, -, rfl⟩ := List.mem_map.mp listed
      exact canonical entry.2

instance : Lawful Store :=
  Json.lawful_record (fun _ => rfl) (fun _ => rfl) (fun _ => rfl) (by decide) (by decide) (by simp)
    (by simp [canonical])

instance : Lawful (Option String) := lawful_option fun _ none => by cases none

instance : Lawful Task :=
  Json.lawful_record (fun _ => rfl) (fun _ => rfl) (fun _ => rfl) (by decide) (by decide) (by simp)
    (by simp [canonical])

instance : Lawful Queue :=
  Json.lawful_record (fun _ => rfl) (fun _ => rfl) (fun _ => rfl) (by decide) (by decide) (by simp)
    (by simp [canonical])

instance : Lawful Call :=
  Json.lawful_record (fun _ => rfl) (fun _ => rfl) (fun _ => rfl) (by decide) (by decide) (by simp)
    (by simp [canonical])

instance : Lawful Frame :=
  Json.lawful_record (fun _ => rfl) (fun _ => rfl) (fun _ => rfl) (by decide) (by decide) (by simp)
    (by simp [canonical])

instance : Lawful (Option Frame) := lawful_option fun _ none => by cases none

instance : Lawful Snapshot :=
  Json.lawful_record (fun _ => rfl) (fun _ => rfl) (fun _ => rfl) (by decide) (by decide) (by simp)
    (by simp [canonical])

theorem Snapshot.ofText_toText (snapshot : Snapshot) : ofText snapshot.toText = .ok snapshot := by
  simp [ofText, toText, ofText?_toPretty]

/-- A snapshot file is read as the snapshot it was written from, and the compact
text of every part of one is read as that part. -/
theorem Snapshot.reading_undoes_writing :
    (∀ snapshot : Snapshot, ofText snapshot.toText = .ok snapshot) ∧
    (∀ command : Command, ofText? Command (toCompact command) = some command) ∧
    (∀ operand : Operand, ofText? Operand (toCompact operand) = some operand) ∧
    (∀ policy : ReadPolicy, ofText? ReadPolicy (toCompact policy) = some policy) ∧
    (∀ cell : Cell, ofText? Cell (toCompact cell) = some cell) ∧
    (∀ store : Store, ofText? Store (toCompact store) = some store) ∧
    (∀ task : Task, ofText? Task (toCompact task) = some task) ∧
    (∀ queue : Queue, ofText? Queue (toCompact queue) = some queue) ∧
    (∀ call : Call, ofText? Call (toCompact call) = some call) ∧
    (∀ frame : Frame, ofText? Frame (toCompact frame) = some frame) :=
  ⟨ofText_toText, ofText?_toCompact, ofText?_toCompact, ofText?_toCompact, ofText?_toCompact,
    ofText?_toCompact, ofText?_toCompact, ofText?_toCompact, ofText?_toCompact, ofText?_toCompact⟩

end Dataflow
