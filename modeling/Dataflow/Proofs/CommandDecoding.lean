import Dataflow.Proofs.ListingRoundTrip

/-! Decoding a command is exact. A parameter that has to be a number is taken if it denotes one
that a word can hold, and then the command has this number in it; which texts denote a number is
said by their signs and digits, without the functions that read them. The text of a command that
was decoded from words is cut into words again, and these are decoded as the command. -/
namespace Dataflow.Command

open Decimal (IsNumeral)

/-- The number that is the parameter of a command. -/
def number? : Command → Option Int
  | .assign value => some value.toInt
  | .pushParam index => some index.toNat
  | .pushReturn index => some index.toNat
  | _ => none

/-- Commands with this name take a number in a range, with one of the signs before it or none. -/
structure TakesNumbers (name : String) (signs : List Char) (low high : Int) : Prop where
  /-- A text is taken exactly if it denotes a number in the range. -/
  accepts : ∀ raw : String, (∃ command, parse name [raw] = .ok command) ↔
    ∃ n, IsNumeral signs raw.toList n ∧ low ≤ n ∧ n ≤ high
  /-- The number that the text denotes is in the command. -/
  yields : ∀ (raw : String) (command : Command) (n : Int), parse name [raw] = .ok command →
    IsNumeral signs raw.toList n → command.name = name ∧ command.number? = some n
  /-- Any number of zeros may lead the digits. -/
  padded : ∀ (sign : Option Char) (digits : List Char) (zeros : Nat) (command : Command),
    (∀ c ∈ sign, c ∈ signs) → digits ≠ [] → (∀ c ∈ digits, c.isDigit = true) →
    (parse name [.ofList (sign.toList ++ (.replicate zeros '0' ++ digits))] = .ok command ↔
      parse name [.ofList (sign.toList ++ digits)] = .ok command)

/-! ### Numbers -/

theorem integer_ok_iff {raw : String} {value : Value} :
    integer raw = .ok value ↔ IsNumeral ['+', '-'] raw.toList value.toInt := by
  rw [← Decimal.bind_value?_eq_some_iff, integer]
  cases (Decimal.signed? raw.toList).bind Decimal.value? <;> simp

theorem index_ok_iff {raw : String} {n : UInt64} :
    index raw = .ok n ↔ IsNumeral ['+'] raw.toList n.toNat := by
  rw [← Decimal.isUnsigned_iff, ← Decimal.bind_word?_eq_some_iff, index]
  cases (Decimal.unsigned? raw.toList).bind Decimal.word? <;> simp

section

variable {α : Type} {name : String} {signs : List Char} {low high : Int}
  {decode : String → Except Error α} {make : α → Command} {number : α → Int}

private theorem parse_number_iff (made : ∀ raw, parse name [raw] = (decode raw).map make)
    (denotes : ∀ raw a, decode raw = .ok a ↔ IsNumeral signs raw.toList (number a))
    {raw : String} {command : Command} :
    parse name [raw] = .ok command ↔
      ∃ a, IsNumeral signs raw.toList (number a) ∧ make a = command := by
  simp only [made, ← denotes]
  cases decode raw <;> simp [Except.map]

/-- A command takes the numbers that its parameter can be, if the parameter is read as the
number that the text denotes. -/
theorem takesNumbers_of_decode (allowed : signs ⊆ ['+', '-'])
    (made : ∀ raw, parse name [raw] = (decode raw).map make)
    (denotes : ∀ raw a, decode raw = .ok a ↔ IsNumeral signs raw.toList (number a))
    (range : ∀ n, (∃ a, number a = n) ↔ low ≤ n ∧ n ≤ high)
    (holds : ∀ a, (make a).name = name ∧ (make a).number? = some (number a)) :
    TakesNumbers name signs low high where
  accepts raw := by
    constructor
    · rintro ⟨command, decoded⟩
      obtain ⟨a, numeral, -⟩ := (parse_number_iff made denotes).mp decoded
      exact ⟨number a, numeral, (range _).mp ⟨a, rfl⟩⟩
    · rintro ⟨n, numeral, inside⟩
      obtain ⟨a, rfl⟩ := (range n).mpr inside
      exact ⟨make a, (parse_number_iff made denotes).mpr ⟨a, numeral, rfl⟩⟩
  yields raw command n decoded numeral := by
    obtain ⟨a, held, rfl⟩ := (parse_number_iff made denotes).mp decoded
    cases numeral.unique allowed held
    exact holds a
  padded sign digits zeros command among long all := by
    simp only [parse_number_iff made denotes, String.toList_ofList,
      Decimal.isNumeral_leading_zeros allowed among long all]

end

theorem assign_takesNumbers :
    TakesNumbers "assign" ['+', '-'] (-9223372036854775808) 9223372036854775807 :=
  takesNumbers_of_decode (List.Subset.refl _) (fun _ => rfl) (fun _ _ => integer_ok_iff)
    (fun _ => Decimal.exists_value_iff) (fun _ => ⟨rfl, rfl⟩)

/-- Both commands that push a cell of the task take an index. -/
theorem index_takesNumbers {name : String} {make : UInt64 → Command}
    (made : ∀ raw, parse name [raw] = (index raw).map make)
    (holds : ∀ n, (make n).name = name ∧ (make n).number? = some (n.toNat : Int)) :
    TakesNumbers name ['+'] 0 18446744073709551615 :=
  takesNumbers_of_decode (by simp) made (fun _ _ => index_ok_iff)
    (fun _ => Decimal.exists_word_iff) holds

/-! ### Printing -/

/-- The text of a command has its name and its parameter as words. -/
theorem words_text {command : Command} (spelled : command.Spelled) :
    Text.words command.text.toList =
      (command.name :: command.parameter?.toList).map String.toList := by
  rw [text_written]
  exact Source.words_written (List.forall_mem_nil _) (words_own spelled)

/-- Decoding is exact, and printing undoes it. An integer is decoded from one or more digits with
a sign or without, and an index from digits with a plus sign or without, as long as the number
fits into a word; the command has this number in it, and leading zeros do not matter. The text of
a command that was decoded from words, cut at white space, gives words that are decoded as that
command. -/
theorem decoding_exact :
    TakesNumbers "assign" ['+', '-'] (-9223372036854775808) 9223372036854775807 ∧
    TakesNumbers "push_param" ['+'] 0 18446744073709551615 ∧
    TakesNumbers "push_return" ['+'] 0 18446744073709551615 ∧
    ∀ name params command, (∀ word ∈ name :: params, Source.IsWord word) →
      parse name params = .ok command →
      ∃ first rest, Text.words command.text.toList = (first :: rest).map String.toList ∧
        parse first rest = .ok command := by
  refine ⟨assign_takesNumbers, ?_, ?_, ?_⟩
  · exact index_takesNumbers (fun _ => rfl) fun _ => ⟨rfl, rfl⟩
  · exact index_takesNumbers (fun _ => rfl) fun _ => ⟨rfl, rfl⟩
  · intro name params command words decoded
    have spelled : command.Spelled :=
      parse_spelled decoded fun word member => words word (List.mem_cons_of_mem _ member)
    exact ⟨command.name, command.parameter?.toList, words_text spelled, command.parse_own⟩

/-- The lowest integer behind zeros is taken, and the first index that no word can hold is not.
An index with a sign and zeros is printed without them. -/
theorem decoding_exact_edges :
    (∃ command, parse "assign" ["-009223372036854775808"] = .ok command ∧
      command.number? = some (-9223372036854775808)) ∧
    (¬ ∃ command, parse "push_param" ["+18446744073709551616"] = .ok command) ∧
    (parse "push_return" ["+0007"] = .ok (.pushReturn 7) ↔
      parse "push_return" ["+7"] = .ok (.pushReturn 7)) ∧
    ∃ first rest, Text.words "push_return 7".toList = (first :: rest).map String.toList ∧
      parse first rest = .ok (.pushReturn 7) := by
  obtain ⟨assign, pushParam, pushReturn, printed⟩ := decoding_exact
  refine ⟨?_, ?_, ?_, ?_⟩
  · have lowest : IsNumeral ['+', '-'] "-009223372036854775808".toList (-9223372036854775808) :=
      Decimal.signed?_eq_some_iff.mp rfl
    obtain ⟨command, decoded⟩ := (assign.accepts _).mpr ⟨_, lowest, by decide, by decide⟩
    exact ⟨command, decoded, (assign.yields _ command _ decoded lowest).2⟩
  · intro taken
    obtain ⟨n, numeral, -, fits⟩ := (pushParam.accepts _).mp taken
    have large : IsNumeral ['+'] "+18446744073709551616".toList (18446744073709551616 : Nat) :=
      Decimal.isUnsigned_iff.mp (Decimal.unsigned?_eq_some_iff.mp rfl)
    cases numeral.unique (by simp) large
    exact absurd fits (by decide)
  · exact pushReturn.padded (some '+') ['7'] 3 _ (by simp) (by simp) (by simp)
  · have words : ∀ word ∈ ["push_return", "+0007"], Source.IsWord word :=
      List.forall_mem_cons.mpr ⟨by decide, List.forall_mem_singleton.mpr (by decide)⟩
    exact printed "push_return" ["+0007"] (.pushReturn 7) words rfl

end Dataflow.Command
