/-! Decimal integers as text. Reading is strict: an optional sign and at least
one ASCII digit, with nothing around them. Leading zeros are accepted. -/
namespace Dataflow.Decimal

/-- Continue a number whose leading digits have the value `read`. -/
def digitsFrom? (read : Nat) : List Char → Option Nat
  | [] => some read
  | c :: rest =>
    if c.isDigit then digitsFrom? (10 * read + (c.toNat - '0'.toNat)) rest else none

/-- One or more digits. -/
def natural? (text : List Char) : Option Nat :=
  if text.isEmpty then none else digitsFrom? 0 text

/-- Digits, after a plus sign if there is one. -/
def unsigned? : List Char → Option Nat
  | '+' :: digits => natural? digits
  | text => natural? text

/-- Digits, after a sign if there is one. -/
def signed? : List Char → Option Int
  | '-' :: digits => (natural? digits).map fun n => -(n : Int)
  | text => (unsigned? text).map fun n => (n : Int)

/-- The word with this value, if one is wide enough. -/
def word? (n : Nat) : Option UInt64 :=
  if n < UInt64.size then some (.ofNat n) else none

/-- The signed word with this value, if one is wide enough. -/
def value? (n : Int) : Option Int64 :=
  if Int64.minValue.toInt ≤ n ∧ n ≤ Int64.maxValue.toInt then some (.ofInt n) else none

/-- The shortest digits of a natural number. -/
def digits (n : Nat) : List Char := Nat.toDigits 10 n

/-- The shortest digits of an integer, after a minus sign if it is negative. -/
def signedDigits (n : Int) : List Char :=
  if n < 0 then '-' :: digits n.natAbs else digits n.natAbs

theorem digitsFrom?_append (read : Nat) (front back : List Char) :
    digitsFrom? read (front ++ back) =
      (digitsFrom? read front).bind fun n => digitsFrom? n back := by
  induction front generalizing read with
  | nil => rfl
  | cons c rest ih =>
    simp only [List.cons_append, digitsFrom?]
    split
    · exact ih _
    · rfl

private theorem digitsFrom?_digitChar (read : Nat) :
    ∀ d < 10, digitsFrom? read [Nat.digitChar d] = some (10 * read + d) := by
  intro d small
  have cases : d = 0 ∨ d = 1 ∨ d = 2 ∨ d = 3 ∨ d = 4 ∨ d = 5 ∨ d = 6 ∨ d = 7 ∨ d = 8 ∨ d = 9 := by
    omega
  rcases cases with rfl | rfl | rfl | rfl | rfl | rfl | rfl | rfl | rfl | rfl <;> rfl

private theorem digitsFrom?_digits (n : Nat) : digitsFrom? 0 (digits n) = some n := by
  induction n using Nat.strongRecOn with
  | ind n ih =>
    rw [digits, Nat.toDigits_eq_if (by decide)]
    split
    · rename_i small
      simpa using digitsFrom?_digitChar 0 n small
    · rename_i large
      have front : digitsFrom? 0 (Nat.toDigits 10 (n / 10)) = some (n / 10) :=
        ih (n / 10) (by omega)
      rw [digitsFrom?_append, front]
      have last := digitsFrom?_digitChar (n / 10) (n % 10) (by omega)
      simpa [last] using (by omega : 10 * (n / 10) + n % 10 = n)

/-- Reading undoes writing. -/
theorem natural?_digits (n : Nat) : natural? (digits n) = some n := by
  have written : (digits n).isEmpty = false := by
    rw [digits, Nat.toDigits_eq_if (by decide)]
    split <;> simp
  simp [natural?, written, digitsFrom?_digits]

def natText (n : Nat) : String := .ofList (digits n)

def wordText (n : UInt64) : String := natText n.toNat

def valueText (n : Int64) : String := .ofList (signedDigits n.toInt)

/-- A list of texts between brackets, separated by a comma and a space. -/
def bracketed (items : List String) : String :=
  "[" ++ ", ".intercalate items ++ "]"

end Dataflow.Decimal
