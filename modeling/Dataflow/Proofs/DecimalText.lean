import Dataflow.Text.Decimal

/-! Numbers in decimal. What is written for a number starts with a digit or a minus sign,
holds nothing else, and reads back as that number over the whole range of a word. The texts
that are read are described on their own, by their signs, their digits and the places of these. -/
namespace Dataflow.Decimal

theorem isDigit_of_mem_digits {c : Char} {n : Nat} (member : c ∈ digits n) : c.isDigit = true :=
  Nat.isDigit_of_mem_toDigits (by decide) (by decide) member

/-- The first character of a number, or of the text after it. -/
theorem digits_head (n : Nat) (rest : List Char) :
    ∃ c later, digits n ++ rest = c :: later ∧ c.isDigit = true := by
  cases shape : digits n with
  | nil => exact absurd shape Nat.toDigits_ne_nil
  | cons c later =>
    exact ⟨c, later ++ rest, rfl, isDigit_of_mem_digits (n := n) (by simp [shape])⟩

theorem mem_signedDigits {c : Char} {n : Int} (member : c ∈ signedDigits n) :
    c.isDigit = true ∨ c = '-' := by
  unfold signedDigits at member
  split at member
  · rcases List.mem_cons.mp member with sign | digit
    · exact .inr sign
    · exact .inl (isDigit_of_mem_digits digit)
  · exact .inl (isDigit_of_mem_digits member)

theorem word?_toNat (n : UInt64) : word? n.toNat = some n := by
  simp [word?, UInt64.toNat_lt_size]

theorem value?_toInt (n : Int64) : value? n.toInt = some n := by
  rw [value?, if_pos ⟨n.minValue_le_toInt, n.toInt_le⟩, Int64.ofInt_toInt]

/-! ### The texts of numbers -/

/-- The number that digits denote by their places, the last one being that of the units. -/
def denoted : List Char → Nat
  | [] => 0
  | c :: rest => (c.toNat - '0'.toNat) * Nat.pow 10 rest.length + denoted rest

/-- A text of this natural number: one or more digits, and a plus sign before them or not. -/
def IsUnsigned (text : List Char) (n : Nat) : Prop :=
  ∃ digits, (text = digits ∨ text = '+' :: digits) ∧ digits ≠ [] ∧
    (∀ c ∈ digits, c.isDigit = true) ∧ denoted digits = n

variable {text : List Char} {n : Nat}

/-- Digits read so far move up by one place with each digit that follows. -/
theorem digitsFrom?_eq_some_iff {read : Nat} :
    digitsFrom? read text = some n ↔
      (∀ c ∈ text, c.isDigit = true) ∧ read * Nat.pow 10 text.length + denoted text = n := by
  induction text generalizing read with
  | nil => simp [digitsFrom?, denoted]
  | cons c rest ih =>
    have places : (10 * read + (c.toNat - '0'.toNat)) * Nat.pow 10 rest.length + denoted rest =
        read * Nat.pow 10 (c :: rest).length + denoted (c :: rest) := by
      have raised : Nat.pow 10 (c :: rest).length = Nat.pow 10 rest.length * 10 := rfl
      rw [raised, denoted, Nat.add_mul, Nat.mul_comm 10 read, Nat.mul_assoc,
        Nat.mul_comm 10 (Nat.pow 10 rest.length), Nat.add_assoc]
    rw [digitsFrom?, List.forall_mem_cons, ← places]
    by_cases digit : c.isDigit = true
    · rw [if_pos digit, ih, and_iff_right digit]
    · rw [if_neg digit]
      exact iff_of_false (by simp) fun all => digit all.1.1

theorem natural?_eq_some_iff :
    natural? text = some n ↔
      text ≠ [] ∧ (∀ c ∈ text, c.isDigit = true) ∧ denoted text = n := by
  cases text with
  | nil => simp [natural?]
  | cons c rest =>
    have start := @digitsFrom?_eq_some_iff (c :: rest) n 0
    rw [Nat.zero_mul, Nat.zero_add] at start
    exact start.trans (and_iff_right (List.cons_ne_nil c rest)).symm

theorem unsigned?_eq_some_iff : unsigned? text = some n ↔ IsUnsigned text n := by
  unfold unsigned?
  split
  · rename_i digits
    constructor
    · intro read
      exact ⟨digits, .inr rfl, natural?_eq_some_iff.mp read⟩
    · rintro ⟨numeral, same | signed, shape⟩
      · -- A numeral has no sign of its own.
        subst same
        exact absurd (shape.2.1 '+' List.mem_cons_self) (by decide)
      · cases signed
        exact natural?_eq_some_iff.mpr shape
  · rename_i unsigned
    constructor
    · intro read
      exact ⟨text, .inl rfl, natural?_eq_some_iff.mp read⟩
    · rintro ⟨numeral, rfl | signed, shape⟩
      · exact natural?_eq_some_iff.mpr shape
      · exact absurd signed (unsigned numeral)

theorem word?_eq_some_iff {word : UInt64} : word? n = some word ↔ n = word.toNat := by
  constructor
  · intro fits
    unfold word? at fits
    split at fits
    · rename_i small
      cases fits
      exact (UInt64.toNat_ofNat_of_lt' small).symm
    · cases fits
  · rintro rfl
    exact word?_toNat word

theorem value?_eq_some_iff {n : Int} {value : Int64} : value? n = some value ↔ n = value.toInt := by
  constructor
  · intro fits
    unfold value? at fits
    split at fits
    · rename_i range
      cases fits
      exact (Int64.toInt_ofInt_of_le range.1 (Int.lt_add_one_of_le range.2)).symm
    · cases fits
  · rintro rfl
    exact value?_toInt value

theorem bind_word?_eq_some_iff {word : UInt64} :
    (unsigned? text).bind word? = some word ↔ IsUnsigned text word.toNat := by
  simp only [Option.bind_eq_some_iff, unsigned?_eq_some_iff, word?_eq_some_iff, exists_eq_right]

/-- The numbers of words. -/
theorem exists_word_iff {n : Int} :
    (∃ word : UInt64, (word.toNat : Int) = n) ↔ 0 ≤ n ∧ n ≤ 18446744073709551615 := by
  constructor
  · rintro ⟨word, rfl⟩
    have bound := word.toNat_lt_size
    simp only [UInt64.size] at bound
    omega
  · rintro ⟨low, high⟩
    refine ⟨.ofNat n.toNat, ?_⟩
    rw [UInt64.toNat_ofNat_of_lt' (by simp only [UInt64.size]; omega)]
    exact Int.toNat_of_nonneg low

/-- The numbers of signed words. -/
theorem exists_value_iff {n : Int} :
    (∃ value : Int64, value.toInt = n) ↔
      -9223372036854775808 ≤ n ∧ n ≤ 9223372036854775807 := by
  constructor
  · rintro ⟨value, rfl⟩
    exact ⟨value.minValue_le_toInt, value.toInt_le⟩
  · rintro ⟨low, high⟩
    exact ⟨.ofInt n, Int64.toInt_ofInt_of_le low (Int.lt_add_one_of_le high)⟩

/-! ### Signs -/

/-- The number of this size behind a sign. Only a minus sign turns it round. -/
def withSign (sign : Option Char) (size : Nat) : Int :=
  if sign = some '-' then -(size : Int) else size

/-- A text of this integer: one or more digits, however many of them are leading zeros, and one
of the signs before them or none. -/
def IsNumeral (signs text : List Char) (n : Int) : Prop :=
  ∃ (sign : Option Char) (digits : List Char), (∀ c ∈ sign, c ∈ signs) ∧
    text = sign.toList ++ digits ∧ digits ≠ [] ∧ (∀ c ∈ digits, c.isDigit = true) ∧
    withSign sign (denoted digits) = n

section

variable {signs more digits : List Char} {sign : Option Char} {m k : Int}

theorem IsNumeral.mono (allowed : signs ⊆ more) (numeral : IsNumeral signs text m) :
    IsNumeral more text m := by
  obtain ⟨sign, digits, among, shape⟩ := numeral
  exact ⟨sign, digits, fun c member => allowed (among c member), shape⟩

/-- Behind a plus sign or no sign stands a natural number. -/
theorem isUnsigned_iff : IsUnsigned text n ↔ IsNumeral ['+'] text n := by
  constructor
  · rintro ⟨digits, plain | plus, long, all, value⟩
    · exact ⟨none, digits, by simp, plain, long, all, congrArg Int.ofNat value⟩
    · exact ⟨some '+', digits, by simp, plus, long, all, congrArg Int.ofNat value⟩
  · rintro ⟨sign, digits, among, shape, long, all, value⟩
    cases sign with
    | none => exact ⟨digits, .inl shape, long, all, Int.ofNat.inj value⟩
    | some c =>
      cases List.mem_singleton.mp (among c rfl)
      exact ⟨digits, .inr shape, long, all, Int.ofNat.inj value⟩

theorem isNumeral_minus :
    IsNumeral ['+', '-'] ('-' :: digits) m ↔
      ∃ size : Nat, natural? digits = some size ∧ -(size : Int) = m := by
  constructor
  · rintro ⟨sign, numeral, -, shape, long, all, rfl⟩
    cases sign with
    | none =>
      -- Without a sign the minus would be one of the digits.
      cases shape
      exact absurd (all '-' List.mem_cons_self) (by decide)
    | some c =>
      cases shape
      exact ⟨_, natural?_eq_some_iff.mpr ⟨long, all, rfl⟩, rfl⟩
  · rintro ⟨size, found, rfl⟩
    obtain ⟨long, all, rfl⟩ := natural?_eq_some_iff.mp found
    exact ⟨some '-', digits, by simp, rfl, long, all, rfl⟩

theorem isNumeral_other (other : ∀ digits, text ≠ '-' :: digits) :
    IsNumeral ['+', '-'] text m ↔ ∃ size : Nat, unsigned? text = some size ∧ (size : Int) = m := by
  simp only [unsigned?_eq_some_iff, isUnsigned_iff]
  constructor
  · rintro ⟨sign, digits, among, rfl, long, all, rfl⟩
    have notMinus : sign ≠ some '-' := by
      rintro rfl
      exact other digits rfl
    have value : withSign sign (denoted digits) = denoted digits := if_neg notMinus
    refine ⟨denoted digits, ⟨sign, digits, fun c member => ?_, rfl, long, all, value⟩, value.symm⟩
    cases member
    simpa [show c ≠ '-' from fun same => notMinus (congrArg some same)] using among c rfl
  · rintro ⟨size, numeral, rfl⟩
    exact numeral.mono (by simp)

theorem signed?_eq_some_iff : signed? text = some m ↔ IsNumeral ['+', '-'] text m := by
  unfold signed?
  split
  · rename_i digits
    rw [isNumeral_minus]
    cases natural? digits <;> simp
  · rename_i other
    rw [isNumeral_other other]
    cases unsigned? text <;> simp

theorem bind_value?_eq_some_iff {value : Int64} :
    (signed? text).bind value? = some value ↔ IsNumeral ['+', '-'] text value.toInt := by
  simp only [Option.bind_eq_some_iff, signed?_eq_some_iff, value?_eq_some_iff, exists_eq_right]

/-- A text denotes one number only, since no sign is a digit. -/
theorem IsNumeral.unique (allowed : signs ⊆ ['+', '-']) (first : IsNumeral signs text m)
    (second : IsNumeral signs text k) : m = k := by
  have read := signed?_eq_some_iff.mpr (first.mono allowed)
  exact Option.some.inj (read.symm.trans (signed?_eq_some_iff.mpr (second.mono allowed)))

theorem denoted_leading_zeros (zeros : Nat) (digits : List Char) :
    denoted (.replicate zeros '0' ++ digits) = denoted digits := by
  induction zeros with
  | zero => rfl
  | succ zeros ih =>
    rw [List.replicate_succ, List.cons_append, denoted, ih, Nat.sub_self, Nat.zero_mul,
      Nat.zero_add]

/-- Zeros between the sign and the digits change nothing. -/
theorem isNumeral_leading_zeros (allowed : signs ⊆ ['+', '-']) (among : ∀ c ∈ sign, c ∈ signs)
    (long : digits ≠ []) (all : ∀ c ∈ digits, c.isDigit = true) (zeros : Nat) :
    IsNumeral signs (sign.toList ++ (.replicate zeros '0' ++ digits)) m ↔
      IsNumeral signs (sign.toList ++ digits) m := by
  have short : IsNumeral signs (sign.toList ++ digits) (withSign sign (denoted digits)) :=
    ⟨sign, digits, among, rfl, long, all, rfl⟩
  have padded : IsNumeral signs (sign.toList ++ (.replicate zeros '0' ++ digits))
      (withSign sign (denoted digits)) := by
    refine ⟨sign, _, among, rfl, List.append_ne_nil_of_right_ne_nil _ long, ?_,
      congrArg (withSign sign) (denoted_leading_zeros zeros digits)⟩
    refine List.forall_mem_append.mpr ⟨fun c member => ?_, all⟩
    cases List.eq_of_mem_replicate member
    rfl
  constructor
  · intro numeral
    exact padded.unique allowed numeral ▸ short
  · intro numeral
    exact short.unique allowed numeral ▸ padded

end

/-! ### What is written reads back -/

theorem unsigned?_digits (n : Nat) : unsigned? (digits n) = some n :=
  unsigned?_eq_some_iff.mpr ⟨digits n, .inl rfl, natural?_eq_some_iff.mp (natural?_digits n)⟩

theorem isNumeral_signedDigits (n : Int) : IsNumeral ['+', '-'] (signedDigits n) n := by
  obtain ⟨long, all, value⟩ := natural?_eq_some_iff.mp (natural?_digits n.natAbs)
  unfold signedDigits
  split
  · rename_i negative
    refine ⟨some '-', digits n.natAbs, by simp, rfl, long, all, ?_⟩
    rw [value, withSign, if_pos rfl]
    omega
  · rename_i notNegative
    refine ⟨none, digits n.natAbs, by simp, rfl, long, all, ?_⟩
    rw [value]
    exact Int.natAbs_of_nonneg (by omega)

theorem signed?_signedDigits (n : Int) : signed? (signedDigits n) = some n :=
  signed?_eq_some_iff.mpr (isNumeral_signedDigits n)

end Dataflow.Decimal
