import Dataflow.Json.Encoding
import Dataflow.Proofs.JsonLayout

/-! Encodings that decoding undoes. The law speaks about JSON values; together
with canonical tokens it carries over to texts, since the reader takes either
layout of a canonical value for that value. Records and variants get one lemma
each, so that a type's own law is only about the fields it has. -/
namespace Dataflow

open Encoded

/-- Decoding undoes encoding, and the encoding can be written and read. -/
class Encoded.Lawful (α : Type) [Encoded α] : Prop where
  decode_encode (value : α) : decode (encode value) = some value
  canonical (value : α) : (encode value).Canonical

export Encoded.Lawful (decode_encode canonical)

attribute [simp] decode_encode

namespace Encoded

theorem ofText?_toCompact [Encoded α] [Lawful α] (value : α) :
    ofText? α (toCompact value) = some value := by
  have whole := Json.read_layout (Json.compact_layout (canonical value))
  simp [ofText?, toCompact, whole]

theorem ofText?_toPretty [Encoded α] [Lawful α] (value : α) :
    ofText? α (toPretty value) = some value := by
  have whole := Json.read_layout (Json.pretty_layout (canonical value) 0)
  simp [ofText?, toPretty, whole]

end Encoded

/-! ### Single tokens -/

private theorem canonical_digits (n : Nat) : (Json.number (Decimal.digits n)).Canonical := by
  have same : Decimal.signedDigits (n : Int) = Decimal.digits n := by
    have notNegative : ¬(n : Int) < 0 := by omega
    simp [Decimal.signedDigits, notNegative]
  exact same ▸ .number (n : Int)

private theorem integer?_signedDigits (n : Int) :
    (Json.number (Decimal.signedDigits n)).integer? = some n := by
  have read := Decimal.natural?_digits n.natAbs
  unfold Decimal.signedDigits
  split
  · obtain ⟨less, size⟩ : ∃ less, n.natAbs = less + 1 := ⟨n.natAbs - 1, by omega⟩
    simp only [Json.integer?, read]
    rw [size]
    exact congrArg some (by omega)
  · -- The first digit is no minus sign, so the whole lexeme is read as digits.
    obtain ⟨c, later, shape, digit⟩ := Decimal.digits_head n.natAbs []
    have notMinus : c ≠ '-' := by
      rintro rfl
      exact absurd digit (by decide)
    rw [List.append_nil] at shape
    rw [shape] at read ⊢
    have whole : (Json.number (c :: later)).integer? = some (n.natAbs : Int) := by
      simp [Json.integer?, notMinus, read]
    rw [whole, Int.natAbs_of_nonneg (by omega)]

instance : Lawful Bool where
  decode_encode _ := rfl
  canonical := .bool

instance : Lawful UInt64 where
  decode_encode n := by
    simp [decode, encode, Json.natural?, Decimal.natural?_digits, Decimal.word?_toNat]
  canonical n := canonical_digits n.toNat

instance : Lawful UInt32 where
  decode_encode n := by
    simp [decode, encode, Json.natural?, Decimal.natural?_digits, UInt32.toNat_lt_size]
  canonical n := canonical_digits n.toNat

instance : Lawful Int64 where
  decode_encode n := by
    simp only [decode, encode, integer?_signedDigits, Option.bind_some, Decimal.value?_toInt]
  canonical n := .number n.toInt

instance : Lawful String where
  decode_encode text := by
    simp [decode, encode, Json.ofText, Json.text?, Json.unescape_escape]
  canonical text := .string text.toList

/-! ### Lists and options -/

/-- Reading each of the things that a list is turned into. -/
theorem mapM_map_eq_some {f : β → Option γ} {g : α → β} {h : α → γ} (items : List α)
    (each : ∀ item ∈ items, f (g item) = some (h item)) :
    (items.map g).mapM f = some (items.map h) := by
  induction items with
  | nil => rfl
  | cons item rest ih =>
    have later := ih fun other member => each other (List.mem_cons_of_mem _ member)
    simp [List.mapM_cons, each item List.mem_cons_self, later]

instance [Encoded α] [Lawful α] : Lawful (List α) where
  decode_encode values := by
    have back := mapM_map_eq_some (h := id) values fun value _ => decode_encode value
    rwa [List.map_id] at back
  canonical values := by
    apply Json.Canonical.array
    intro item member
    obtain ⟨value, -, rfl⟩ := List.mem_map.mp member
    exact canonical value

/-- An absent value is `null`, so a value that is there must not be. -/
theorem lawful_option [Encoded α] [Lawful α] (apart : ∀ value : α, encode value ≠ .null) :
    Lawful (Option α) where
  decode_encode value := by
    cases value with
    | none => rfl
    | some value =>
      have held := decode_encode value
      simp only [decode, encode]
      split
      · rename_i absent
        exact absurd absent (apart value)
      · rw [held]
        rfl
  canonical value := by
    cases value with
    | none => exact .null
    | some value => exact canonical value

namespace Json

/-! ### Records and variants -/

/-- Names that are written as they are. -/
def Unescaped (name : String) : Prop := escape name.toList = name.toList

instance (name : String) : Decidable (Unescaped name) :=
  inferInstanceAs (Decidable (_ = _))

theorem unescape_name {name : String} (unescaped : Unescaped name) :
    unescape name.toList = some name.toList := by
  rw [← unescaped, unescape_escape, unescaped]

private def keyed (field : String × Json) : List Char × Json := (field.1.toList, field.2)

private theorem record_eq (fields : List (String × Json)) :
    record fields = .object (fields.map keyed) := rfl

theorem canonical_record {fields : List (String × Json)}
    (unescaped : ∀ name ∈ fields.map (·.1), Unescaped name)
    (each : ∀ json ∈ fields.map (·.2), json.Canonical) : (record fields).Canonical := by
  apply Canonical.object
  · intro member listed
    obtain ⟨field, inside, rfl⟩ := List.mem_map.mp listed
    exact ⟨field.1.toList, (unescaped field.1 (List.mem_map_of_mem inside)).symm⟩
  · intro member listed
    obtain ⟨field, inside, rfl⟩ := List.mem_map.mp listed
    exact each field.2 (List.mem_map_of_mem inside)

private theorem filter_keyed {fields : List (String × Json)} {field : String × Json}
    (distinct : (fields.map (·.1)).Nodup) (inside : field ∈ fields) :
    (fields.map keyed).filter (·.1 == field.1.toList) = [keyed field] := by
  induction fields with
  | nil => cases inside
  | cons head rest ih =>
    obtain ⟨apart, later⟩ := List.nodup_cons.mp distinct
    rcases List.mem_cons.mp inside with rfl | deeper
    · have others : (rest.map keyed).filter (·.1 == field.1.toList) = [] := by
        rw [List.filter_eq_nil_iff]
        intro member listed same
        obtain ⟨other, held, rfl⟩ := List.mem_map.mp listed
        have equal : other.1 = field.1 := String.toList_inj.mp (by simpa [keyed] using same)
        exact apart (List.mem_map.mpr ⟨other, held, equal⟩)
      simp [keyed, others]
    · have different : head.1 ≠ field.1 := by
        intro equal
        exact apart (List.mem_map.mpr ⟨field, deeper, equal.symm⟩)
      have skipped : (keyed head).1 ≠ field.1.toList := fun same =>
        different (String.toList_inj.mp same)
      simp [skipped, ih later deeper]

/-- The fields of a record are found in the order of their names. -/
theorem fields?_record {names : List String} {fields : List (String × Json)}
    (named : fields.map (·.1) = names) (distinct : names.Nodup)
    (unescaped : ∀ name ∈ names, Unescaped name) :
    (record fields).fields? names = some (fields.map fun field => some field.2) := by
  subst named
  have keys := mapM_map_eq_some (g := keyed) (h := keyed) fields
    (f := fun member => (unescape member.1).map (·, member.2)) (by
      intro field inside
      simp [keyed, unescape_name (unescaped field.1 (List.mem_map_of_mem inside))])
  have values := mapM_map_eq_some (f := member? (fields.map keyed)) (g := (·.1))
    (h := fun field => some field.2) fields (by
      intro field inside
      simp [member?, filter_keyed distinct inside, keyed])
  rw [record_eq, fields?, keys]
  exact values

theorem canonical_variant {name : String} {json : Json} (unescaped : Unescaped name)
    (data : json.Canonical) : (record [(name, json)]).Canonical := by
  apply canonical_record
  · simpa using unescaped
  · simpa using data

/-- Decoding a variant with data is decoding the data. -/
theorem bind_variant?_record {name : String} {json : Json}
    {next : String × Option Json → Option α} {value : α}
    (decoded : next (name, some json) = some value) (unescaped : Unescaped name) :
    (record [(name, json)]).variant? >>= next = some value := by
  have found : (record [(name, json)]).variant? = some (name, some json) := by
    simp [variant?, record, unescape_name unescaped]
  rw [found]
  exact decoded

@[simp] theorem required_encode [Encoded α] [Lawful α] (value : α) :
    required (some (encode value)) = some value :=
  decode_encode value

@[simp] theorem optional_encode [Encoded α] [Lawful (Option α)] (value : Option α) :
    optional (some (encode value)) = some value :=
  decode_encode value

@[simp] theorem carrying_encode [Encoded α] [Lawful α] (make : α → β) (value : α) :
    carrying make (some (encode value)) = some (make value) := by
  simp [carrying]

/-- A type is encoded lawfully as a record if its values can be put together
from the encoded fields. -/
theorem lawful_record [Encoded α] {fields : α → List (String × Json)} {names : List String}
    {next : List (Option Json) → Option α} (encoded : ∀ value, encode value = record (fields value))
    (decoded : ∀ json, decode json = json.fields? names >>= next)
    (named : ∀ value, (fields value).map (·.1) = names) (distinct : names.Nodup)
    (unescaped : ∀ name ∈ names, Unescaped name)
    (whole : ∀ value, next ((fields value).map fun field => some field.2) = some value)
    (each : ∀ value, ∀ json ∈ (fields value).map (·.2), json.Canonical) : Lawful α where
  decode_encode value := by
    rw [encoded, decoded, fields?_record (named value) distinct unescaped]
    exact whole value
  canonical value := by
    rw [encoded]
    apply canonical_record
    · rw [named]
      exact unescaped
    · exact each value

end Json

end Dataflow
