import Dataflow.Source.Line

/-! Words of source text. A word that is read has no blank and no semicolon in it. A row
that is written from such words, with one space between two of them, is read as the same
words; and rows that end with line feeds are the lines of the text. -/
namespace Dataflow

/-! ### Cutting text -/

namespace Text

variable {text word piece : List Char} {c : Char}

/-- No piece has a separator in it, and all it has comes from the text. -/
theorem mem_splitOnP {separates : Char → Bool} (member : piece ∈ text.splitOnP separates)
    (inside : c ∈ piece) : separates c = false ∧ c ∈ text := by
  induction text generalizing piece with
  | nil =>
    cases List.mem_singleton.mp member
    cases inside
  | cons first rest ih =>
    rw [List.splitOnP_cons_eq_if_modifyHead] at member
    split at member
    · rcases List.mem_cons.mp member with rfl | later
      · cases inside
      · obtain ⟨clear, held⟩ := ih later inside
        exact ⟨clear, List.mem_cons_of_mem _ held⟩
    · rename_i notFirst
      cases cut : rest.splitOnP separates with
      | nil => exact absurd cut (List.splitOnP_ne_nil separates rest)
      | cons head tail =>
        rw [cut] at member ih
        rcases List.mem_cons.mp member with rfl | later
        · rcases List.mem_cons.mp inside with rfl | deeper
          · exact ⟨Bool.eq_false_iff.mpr notFirst, List.mem_cons_self⟩
          · obtain ⟨clear, held⟩ := ih List.mem_cons_self deeper
            exact ⟨clear, List.mem_cons_of_mem _ held⟩
        · obtain ⟨clear, held⟩ := ih (List.mem_cons_of_mem _ later) inside
          exact ⟨clear, List.mem_cons_of_mem _ held⟩

theorem mem_words (member : word ∈ words text) :
    word ≠ [] ∧ ∀ c ∈ word, isBlank c = false ∧ c ∈ text := by
  obtain ⟨cut, long⟩ := List.mem_filter.mp member
  exact ⟨by simpa using long, fun c inside => mem_splitOnP cut inside⟩

/-- Words are cut at every blank. All else about words follows from this. -/
theorem words_append_cons (blank : isBlank c = true) (before after : List Char) :
    words (before ++ c :: after) = words before ++ words after := by
  rw [words, List.splitOnP_append_cons before after blank, List.filter_append]
  rfl

theorem words_margin {margin : List Char} (blank : ∀ c ∈ margin, isBlank c = true)
    (text : List Char) : words (margin ++ text) = words text := by
  induction margin with
  | nil => rfl
  | cons c rest ih =>
    have first := words_append_cons (blank c List.mem_cons_self) [] (rest ++ text)
    rw [List.cons_append, ← List.nil_append (c :: (rest ++ text)), first]
    exact ih fun d member => blank d (List.mem_cons_of_mem _ member)

/-- A text without blanks is one word, unless it is empty. -/
theorem words_unbroken (long : text ≠ []) (unbroken : ∀ c ∈ text, isBlank c = false) :
    words text = [text] := by
  rw [words, List.splitOnP_eq_singleton unbroken]
  simp [long]

/-- Rows that end with line feeds are lines, and what follows them is cut on its own. -/
theorem lines_rows {rows : List (List Char)} (single : ∀ row ∈ rows, '\n' ∉ row)
    (rest : List Char) :
    lines (rows.flatMap (· ++ ['\n']) ++ rest) = rows ++ lines rest := by
  induction rows with
  | nil => rfl
  | cons row later ih =>
    have tail := ih fun other member => single other (List.mem_cons_of_mem _ member)
    rw [List.flatMap_cons, List.append_assoc, List.append_assoc, List.singleton_append, lines,
      List.splitOn_append_cons_self_of_not_mem (single row List.mem_cons_self)]
    exact congrArg (row :: ·) tail

end Text

namespace Source

/-! ### Words of a program -/

/-- A text that can stand as one word of a line: it is not empty, and neither a blank nor a
semicolon is in it. -/
def IsWord (word : String) : Prop :=
  word.toList ≠ [] ∧ ∀ c ∈ word.toList, Text.isBlank c = false ∧ c ≠ ';'

instance (word : String) : Decidable (IsWord word) :=
  @instDecidableAnd _ _ inferInstance (List.decidableBAll _ _)

/-- All words of the line can stand as words. -/
def Line.Spelled (line : Line) : Prop :=
  ∀ word ∈ line.name :: line.params, IsWord word

theorem mem_code {text : List Char} {c : Char} (member : c ∈ code text) : c ≠ ';' := by
  have all := List.all_eq_true.mp (List.all_takeWhile (p := (· != ';')) (l := text)) c member
  simpa using all

theorem line?_spelled {number : Nat} {text : List Char} {line : Line}
    (read : line? number text = some line) : line.Spelled := by
  have each : ∀ word ∈ (Text.words (code text)).map String.ofList, IsWord word := by
    intro word member
    obtain ⟨chars, cut, rfl⟩ := List.mem_map.mp member
    obtain ⟨long, clear⟩ := Text.mem_words cut
    rw [IsWord, String.toList_ofList]
    exact ⟨long, fun c inside => ⟨(clear c inside).1, mem_code (clear c inside).2⟩⟩
  unfold line? at read
  split at read
  · cases read
  · rename_i name params shape
    cases read
    rw [shape] at each
    exact each

/-- A line is read from the row at its place. -/
theorem mem_linesFrom_iff {number : Nat} {rows : List (List Char)} {line : Line} :
    line ∈ linesFrom number rows ↔
      ∃ place row, rows[place]? = some row ∧ line? (number + place) row = some line := by
  induction rows generalizing number with
  | nil => simp [linesFrom]
  | cons first rest ih =>
    rw [linesFrom, List.mem_append, Option.mem_toList, ih]
    constructor
    · rintro (here | ⟨place, row, held, read⟩)
      · exact ⟨0, first, rfl, here⟩
      · exact ⟨place + 1, row, held, by rwa [← Nat.add_assoc, Nat.add_right_comm]⟩
    · rintro ⟨place, row, held, read⟩
      cases place with
      | zero =>
        cases held
        exact .inl read
      | succ place =>
        rw [← Nat.add_assoc, Nat.add_right_comm] at read
        exact .inr ⟨place, row, held, read⟩

/-- Everything read from a source is spelled with words. -/
theorem tokenize_spelled {source : String} {line : Line} (member : line ∈ tokenize source) :
    line.Spelled := by
  obtain ⟨place, row, -, read⟩ := mem_linesFrom_iff.mp member
  exact line?_spelled read

theorem linesFrom_append (number : Nat) (rows more : List (List Char)) :
    linesFrom number (rows ++ more) =
      linesFrom number rows ++ linesFrom (number + rows.length) more := by
  induction rows generalizing number with
  | nil => rfl
  | cons row rest ih =>
    rw [List.cons_append, linesFrom, linesFrom, ih, List.length_cons, List.append_assoc,
      Nat.add_right_comm, Nat.add_assoc]

/-! ### Rows written from words -/

/-- A row: a margin, a name, and each parameter after a space. -/
def written (margin : List Char) (name : String) (params : List String) : List Char :=
  margin ++ (name.toList ++ params.flatMap fun param => ' ' :: param.toList)

section

variable {margin : List Char} {name : String} {params : List String}

private theorem words_row (words : ∀ word ∈ name :: params, IsWord word) :
    Text.words (name.toList ++ params.flatMap fun param => ' ' :: param.toList) =
      (name :: params).map String.toList := by
  have single : ∀ word, IsWord word → Text.words word.toList = [word.toList] :=
    fun word good => Text.words_unbroken good.1 fun c inside => (good.2 c inside).1
  induction params generalizing name with
  | nil =>
    rw [List.flatMap_nil, List.append_nil]
    exact single name (words name List.mem_cons_self)
  | cons param rest ih =>
    have later := ih fun word member => words word (List.mem_cons_of_mem _ member)
    rw [List.flatMap_cons, List.cons_append, Text.words_append_cons (by rfl), later,
      single name (words name List.mem_cons_self)]
    rfl

/-- A row written from words has these words. -/
theorem words_written (blank : ∀ c ∈ margin, Text.isBlank c = true)
    (words : ∀ word ∈ name :: params, IsWord word) :
    Text.words (written margin name params) = (name :: params).map String.toList := by
  rw [written, Text.words_margin blank, words_row words]

/-- What a row is made of: the margin, spaces, and characters that words can have. -/
theorem mem_written {c : Char} (words : ∀ word ∈ name :: params, IsWord word)
    (member : c ∈ written margin name params) :
    c ∈ margin ∨ c = ' ' ∨ Text.isBlank c = false ∧ c ≠ ';' := by
  rcases List.mem_append.mp member with before | inside
  · exact .inl before
  · rcases List.mem_append.mp inside with first | later
    · exact .inr (.inr ((words name List.mem_cons_self).2 c first))
    · obtain ⟨param, given, held⟩ := List.mem_flatMap.mp later
      rcases List.mem_cons.mp held with space | letter
      · exact .inr (.inl space)
      · exact .inr (.inr ((words param (List.mem_cons_of_mem _ given)).2 c letter))

/-- A row written from words is read as these words. -/
theorem line?_written (number : Nat) (blank : ∀ c ∈ margin, Text.isBlank c = true)
    (words : ∀ word ∈ name :: params, IsWord word) :
    line? number (written margin name params) = some ⟨number, name, params⟩ := by
  have whole : code (written margin name params) = written margin name params := by
    have clear : ∀ c ∈ written margin name params, (c != ';') = true := by
      intro c member
      apply bne_iff_ne.mpr
      rintro rfl
      rcases mem_written words member with before | space | letter
      · exact absurd (blank ';' before) (by decide)
      · exact absurd space (by decide)
      · exact letter.2 rfl
    rw [code, ← List.append_nil (written margin name params), List.takeWhile_append_of_pos clear,
      List.takeWhile_nil]
  have cut : (Text.words (written margin name params)).map String.ofList = name :: params := by
    rw [words_written blank words, List.map_map]
    simp [Function.comp_def]
  rw [line?, whole, cut]

end

end Source

end Dataflow
