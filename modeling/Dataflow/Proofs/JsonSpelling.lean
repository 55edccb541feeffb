import Dataflow.Json.Encoding
import Dataflow.Proofs.DecimalText

/-! Spellings of single JSON tokens. A text is spelled by escaping it, an integer
by its shortest digits; the reader takes exactly the spelling and stops, and
what it took denotes the text or the integer again. -/
namespace Dataflow.Json

/-! ### Strings -/

private theorem hexValue_digitChar : ∀ d < 16, hexValue? (Nat.digitChar d) = some d := by
  decide

private theorem unit_control (c : Char) (control : isControl c = true) :
    unit? '0' '0' (Nat.digitChar (c.toNat / 16)) (Nat.digitChar (c.toNat % 16)) =
      some c.toNat := by
  have small : c.toNat < 32 := by simpa [isControl] using control
  have zero : hexValue? '0' = some 0 := by decide
  have high := hexValue_digitChar (c.toNat / 16) (by omega)
  have low := hexValue_digitChar (c.toNat % 16) (by omega)
  have value : c.toNat / 16 * 16 + c.toNat % 16 = c.toNat := by omega
  simp [unit?, zero, high, low, value]

private theorem escapeChar_cases (c : Char) :
    (∃ mark, escapeChar c = ['\\', mark] ∧ mark ≠ 'u' ∧ shortEscape? mark = some c) ∨
    (isControl c = true ∧ escapeChar c =
      ['\\', 'u', '0', '0', Nat.digitChar (c.toNat / 16), Nat.digitChar (c.toNat % 16)]) ∨
    (escapeChar c = [c] ∧ isControl c = false ∧ c ≠ '\\' ∧ c ≠ '"') := by
  unfold escapeChar
  split
  · exact .inl ⟨'"', rfl, by decide, rfl⟩
  · exact .inl ⟨'\\', rfl, by decide, rfl⟩
  · exact .inl ⟨'b', rfl, by decide, rfl⟩
  · exact .inl ⟨'f', rfl, by decide, rfl⟩
  · exact .inl ⟨'n', rfl, by decide, rfl⟩
  · exact .inl ⟨'r', rfl, by decide, rfl⟩
  · exact .inl ⟨'t', rfl, by decide, rfl⟩
  · rename_i notQuote notSlash _ _ _ _ _
    cases control : isControl c with
    | true => exact .inr (.inl ⟨rfl, rfl⟩)
    | false => exact .inr (.inr ⟨rfl, rfl, notSlash, notQuote⟩)

private theorem unescape_short {mark c : Char} (notUnit : mark ≠ 'u')
    (short : shortEscape? mark = some c) (rest : List Char) :
    unescape ('\\' :: mark :: rest) = (unescape rest).map (c :: ·) := by
  simp [unescape, notUnit, short]

private theorem unescape_plain {c : Char} (notSlash : c ≠ '\\') (rest : List Char) :
    unescape (c :: rest) = (unescape rest).map (c :: ·) := by
  simp [unescape, notSlash]

private theorem unescape_escapeChar (c : Char) (rest : List Char) :
    unescape (escapeChar c ++ rest) = (unescape rest).map (c :: ·) := by
  rcases escapeChar_cases c with ⟨mark, form, notUnit, short⟩ | ⟨control, form⟩ |
    ⟨form, -, notSlash, -⟩
  · rw [form]
    exact unescape_short notUnit short rest
  · have small : c.toNat < 32 := by simpa [isControl] using control
    have notHigh : isHighSurrogate c.toNat = false := by
      simp only [isHighSurrogate, Bool.and_eq_false_iff, decide_eq_false_iff_not]
      omega
    have notLow : isLowSurrogate c.toNat = false := by
      simp only [isLowSurrogate, Bool.and_eq_false_iff, decide_eq_false_iff_not]
      omega
    rw [form]
    simp [unescape, unit_control c control, notHigh, notLow, Char.ofNat_toNat]
  · rw [form]
    exact unescape_plain notSlash rest

/-- An escaped text denotes the text. -/
theorem unescape_escape (text : List Char) : unescape (escape text) = some text := by
  induction text with
  | nil => simp [escape, unescape]
  | cons c rest ih =>
    rw [escape, List.flatMap_cons, unescape_escapeChar, ← escape, ih]
    rfl

private theorem stringBody_short {mark : Char} (notUnit : mark ≠ 'u')
    (short : (shortEscape? mark).isSome = true) (rest : List Char) :
    stringBody ('\\' :: mark :: rest) = after ['\\', mark] (stringBody rest) := by
  rw [stringBody, if_pos short]
  exact fun _ _ _ _ _ unit _ => notUnit unit

private theorem stringBody_plain {c : Char} (printed : isControl c = false)
    (notSlash : c ≠ '\\') (notQuote : c ≠ '"') (rest : List Char) :
    stringBody (c :: rest) = after [c] (stringBody rest) := by
  simp [stringBody, printed, notSlash]

private theorem stringBody_escapeChar (c : Char) (rest : List Char) :
    stringBody (escapeChar c ++ rest) = after (escapeChar c) (stringBody rest) := by
  rcases escapeChar_cases c with ⟨mark, form, notUnit, short⟩ | ⟨control, form⟩ |
    ⟨form, printed, notSlash, notQuote⟩
  · rw [form]
    exact stringBody_short notUnit (by simp [short]) rest
  · rw [form]
    simp [stringBody, unit_control c control]
  · rw [form]
    exact stringBody_plain printed notSlash notQuote rest

/-- The reader of a string stops at the quote that closes an escaped text. -/
theorem stringBody_escape (text rest : List Char) :
    stringBody (escape text ++ '"' :: rest) = some (escape text, rest) := by
  induction text with
  | nil => simp [escape, stringBody]
  | cons c later ih =>
    rw [escape, List.flatMap_cons, List.append_assoc, stringBody_escapeChar, ← escape, ih]
    rfl

/-! ### Numbers -/

/-- What may follow a value: nothing, white space, a comma or a closing mark. -/
def Delimited (rest : List Char) : Prop :=
  ∀ c ∈ rest.head?, isSpace c = true ∨ c = ',' ∨ c = ']' ∨ c = '\x7d'

private theorem delimited_cons {c : Char} {rest : List Char} (ends : Delimited (c :: rest)) :
    c.isDigit = false ∧ c ≠ '.' ∧ c ≠ 'e' ∧ c ≠ 'E' := by
  rcases ends c rfl with space | rfl | rfl | rfl
  · simp only [isSpace, Bool.or_eq_true, beq_iff_eq] at space
    rcases space with ((rfl | rfl) | rfl) | rfl <;> decide
  · decide
  · decide
  · decide

private theorem digitChar_ne_zero : ∀ d < 10, 0 < d → Nat.digitChar d ≠ '0' := by decide

private theorem digits_pos (n : Nat) (positive : 0 < n) :
    ∃ c rest, Decimal.digits n = c :: rest ∧ c ≠ '0' := by
  induction n using Nat.strongRecOn with
  | ind n ih =>
    rw [Decimal.digits, Nat.toDigits_eq_if (by decide)]
    split
    · rename_i small
      exact ⟨_, [], rfl, digitChar_ne_zero n small positive⟩
    · obtain ⟨c, rest, front, leading⟩ := ih (n / 10) (by omega) (by omega)
      rw [Decimal.digits] at front
      exact ⟨c, rest ++ [Nat.digitChar (n % 10)], by rw [front]; rfl, leading⟩

private theorem digitRun_digits (n : Nat) {rest : List Char} (ends : Delimited rest) :
    digitRun (Decimal.digits n ++ rest) = (Decimal.digits n, rest) := by
  have all : ∀ c ∈ Decimal.digits n, c.isDigit = true := fun c member =>
    Decimal.isDigit_of_mem_digits member
  rw [digitRun, List.takeWhile_append_of_pos all, List.dropWhile_append_of_pos all]
  cases rest with
  | nil => simp
  | cons c later =>
    have stop := (delimited_cons ends).1
    simp [stop]

private theorem wholePart_digits (n : Nat) {rest : List Char} (ends : Delimited rest) :
    wholePart (Decimal.digits n ++ rest) = some (Decimal.digits n, rest) := by
  by_cases zero : n = 0
  · subst zero
    rfl
  · obtain ⟨c, later, shape, leading⟩ := digits_pos n (by omega)
    have run := digitRun_digits n ends
    rw [shape, List.cons_append] at run ⊢
    rw [wholePart, someDigits, run]
    intro tail same
    exact leading (List.cons.inj same).1

private theorem unsignedNumber_digits (n : Nat) {rest : List Char} (ends : Delimited rest) :
    unsignedNumber (Decimal.digits n ++ rest) = some (Decimal.digits n, rest) := by
  rw [unsignedNumber, wholePart_digits n ends]
  cases rest with
  | nil => simp [fraction, exponent, after]
  | cons c later =>
    obtain ⟨-, notPoint, notSmall, notLarge⟩ := delimited_cons ends
    simp [fraction, exponent, after, notPoint, notSmall, notLarge]

/-- The reader of a number takes all digits of an integer and nothing else. -/
theorem numberLexeme_signedDigits (n : Int) {rest : List Char} (ends : Delimited rest) :
    numberLexeme (Decimal.signedDigits n ++ rest) = some (Decimal.signedDigits n, rest) := by
  have unsigned := unsignedNumber_digits n.natAbs ends
  unfold Decimal.signedDigits
  split
  · simp [numberLexeme, unsigned, after]
  · obtain ⟨c, later, shape, digit⟩ := Decimal.digits_head n.natAbs rest
    have notMinus : c ≠ '-' := fun same => by simp [same] at digit
    rw [shape] at unsigned ⊢
    simpa [numberLexeme, notMinus] using unsigned

/-- An integer starts with a digit or a minus sign. -/
theorem signedDigits_head (n : Int) :
    ∃ c rest, Decimal.signedDigits n = c :: rest ∧ (c.isDigit = true ∨ c = '-') := by
  unfold Decimal.signedDigits
  split
  · exact ⟨'-', _, rfl, .inr rfl⟩
  · obtain ⟨c, later, shape, digit⟩ := Decimal.digits_head n.natAbs []
    exact ⟨c, later, by simpa using shape, .inl digit⟩

private theorem escape_eq_self {text : List Char} (each : ∀ c ∈ text, escapeChar c = [c]) :
    escape text = text := by
  induction text with
  | nil => rfl
  | cons c rest ih =>
    have later := ih fun d member => each d (List.mem_cons_of_mem _ member)
    rw [escape, List.flatMap_cons, each c List.mem_cons_self, ← escape, later]
    rfl

/-- Digits need no escape. -/
theorem escape_digits (n : Nat) : escape (Decimal.digits n) = Decimal.digits n := by
  apply escape_eq_self
  intro c member
  have digit := Decimal.isDigit_of_mem_digits member
  have printed : isControl c = false := by
    have range : '0'.val ≤ c.val ∧ c.val ≤ '9'.val := by simpa [Char.isDigit] using digit
    have low : 48 ≤ c.toNat := UInt32.le_iff_toNat_le.mp range.1
    simp only [isControl, decide_eq_false_iff_not]
    omega
  unfold escapeChar
  split
  case h_8 => simp [printed]
  -- The characters with a form of their own are no digits.
  all_goals exact absurd digit (by decide)

end Dataflow.Json
