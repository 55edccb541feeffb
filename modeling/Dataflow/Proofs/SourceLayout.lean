import Dataflow.Proofs.SourceWords
import Dataflow.Source.Block

/-! The layout of a source. Comments, blank rows and the width of blanks say nothing: whoever
adds them to a text or changes them only moves rows, and the text is then read as before, with
each row under its new number. An edit that keeps the words of a row keeps the line that is
read from it, and reading looks at a line's number only to put it into an error. -/
namespace Dataflow

namespace Text

theorem words_blank {text : List Char} (blank : ∀ c ∈ text, isBlank c = true) :
    words text = [] := by
  have alone := words_margin blank []
  rwa [List.append_nil] at alone

/-- Words on the two sides of a blank run are cut apart, whatever the run is. -/
theorem words_gap {gap : List Char} (some : gap ≠ []) (blank : ∀ c ∈ gap, isBlank c = true)
    (before after : List Char) :
    words (before ++ (gap ++ after)) = words before ++ words after := by
  cases gap with
  | nil => exact absurd rfl some
  | cons c rest =>
    obtain ⟨first, later⟩ := List.forall_mem_cons.mp blank
    rw [List.cons_append, words_append_cons first, words_margin later]

theorem words_tail {margin : List Char} (blank : ∀ c ∈ margin, isBlank c = true)
    (text : List Char) : words (text ++ margin) = words text := by
  by_cases none : margin = []
  · rw [none, List.append_nil]
  · have cut := words_gap none blank text []
    rw [List.append_nil] at cut
    exact cut.trans (List.append_nil _)

end Text

namespace Source

/-! ### Edits of rows -/

/-- A change to one row that leaves its words as they are. Rows are what is between two line
feeds, so none of the texts that are added can have one. -/
inductive Respaced : List Char → List Char → Prop where
  /-- Any text is added as a comment, also behind another one, or in place of last blanks. -/
  | comment (row margin text : List Char) : (∀ c ∈ margin, Text.isBlank c = true) →
      Respaced (row ++ margin) (row ++ ';' :: text)
  /-- Blanks are put in front. -/
  | lead (row margin : List Char) : (∀ c ∈ margin, Text.isBlank c = true) →
      Respaced row (margin ++ row)
  /-- Blanks are put behind the words, before a comment. -/
  | trail (row margin : List Char) : (∀ c ∈ margin, Text.isBlank c = true) →
      Respaced row (code row ++ (margin ++ row.dropWhile (· != ';')))
  /-- Blanks are replaced by others. -/
  | gap (before gap other after : List Char) : gap ≠ [] → other ≠ [] →
      (∀ c ∈ gap, Text.isBlank c = true) → (∀ c ∈ other, Text.isBlank c = true) →
      Respaced (before ++ (gap ++ after)) (before ++ (other ++ after))

/-- Rows are changed one after the other, and rows that are blank before any comment are put
in anywhere. The row with the number `n`, counted from one, is in the end the one with the
number `move n`. -/
inductive Relaid (rows : List (List Char)) : (Nat → Nat) → List (List Char) → Prop where
  | same : Relaid rows id rows
  | insert {move : Nat → Nat} {before after : List (List Char)} (row : List Char) :
      Relaid rows move (before ++ after) → (∀ c ∈ code row, Text.isBlank c = true) →
      Relaid rows (fun n => if move n ≤ before.length then move n else move n + 1)
        (before ++ row :: after)
  | respace {move : Nat → Nat} {before after : List (List Char)} {row spaced : List Char} :
      Relaid rows move (before ++ row :: after) → Respaced row spaced →
      Relaid rows move (before ++ spaced :: after)

section

variable {rows edited : List (List Char)} {move : Nat → Nat}

/-- Rows keep their order. -/
theorem relaid_ordered (relaid : Relaid rows move edited) {m n : Nat} (less : m < n) :
    move m < move n := by
  induction relaid with
  | same => exact less
  | insert row _ _ ih =>
    dsimp only
    split <;> split <;> omega
  | respace _ _ ih => exact ih

/-! ### Words before a comment -/

theorem code_cons (c : Char) (rest : List Char) :
    code (c :: rest) = if c = ';' then [] else c :: code rest := by
  by_cases comment : c = ';'
  · subst comment
    rfl
  · have passed : (c != ';') = true := bne_iff_ne.mpr comment
    rw [if_neg comment, code, List.takeWhile_cons, if_pos passed]
    rfl

theorem code_append_of_mem {row : List Char} (commented : ';' ∈ row) (more : List Char) :
    code (row ++ more) = code row := by
  induction row with
  | nil => cases commented
  | cons c rest ih =>
    rw [List.cons_append, code_cons, code_cons]
    split
    · rfl
    · rename_i first
      rw [ih ((List.mem_cons.mp commented).resolve_left (Ne.symm first))]

theorem code_append_of_not_mem {row : List Char} (clear : ';' ∉ row) (more : List Char) :
    code (row ++ more) = row ++ code more := by
  apply List.takeWhile_append_of_pos
  intro c member
  apply bne_iff_ne.mpr
  rintro rfl
  exact clear member

theorem code_eq_self {row : List Char} (clear : ';' ∉ row) : code row = row := by
  have whole := code_append_of_not_mem clear []
  have nothing : code [] = [] := rfl
  rwa [nothing, List.append_nil] at whole

theorem blank_not_comment {margin : List Char} (blank : ∀ c ∈ margin, Text.isBlank c = true) :
    ';' ∉ margin :=
  fun member => absurd (blank ';' member) (by decide)

theorem code_rest (row : List Char) : code (row.dropWhile (· != ';')) = [] := by
  induction row with
  | nil => rfl
  | cons c rest ih =>
    rw [List.dropWhile_cons]
    split
    · exact ih
    · rename_i comment
      exact List.takeWhile_cons_of_neg comment

/-- The words of a row, up to its comment. -/
def rowWords (row : List Char) : List String :=
  (Text.words (code row)).map String.ofList

/-- The words of a row do not change. -/
theorem respaced_words {row spaced : List Char} (respaced : Respaced row spaced) :
    rowWords spaced = rowWords row := by
  apply congrArg (List.map String.ofList)
  cases respaced with
  | comment row margin text blank =>
    by_cases commented : ';' ∈ row
    · rw [code_append_of_mem commented, code_append_of_mem commented]
    · have ends : code (';' :: text) = [] := rfl
      rw [code_append_of_not_mem commented, code_append_of_not_mem commented, ends,
        List.append_nil, code_eq_self (blank_not_comment blank), Text.words_tail blank]
  | lead row margin blank =>
    rw [code_append_of_not_mem (blank_not_comment blank), Text.words_margin blank]
  | trail row margin blank =>
    have clear : ';' ∉ code row := fun member => mem_code member rfl
    rw [code_append_of_not_mem clear, code_append_of_not_mem (blank_not_comment blank), code_rest,
      List.append_nil, Text.words_tail blank]
  | gap before gap other after some kept blank white =>
    by_cases commented : ';' ∈ before
    · rw [code_append_of_mem commented, code_append_of_mem commented]
    · rw [code_append_of_not_mem commented, code_append_of_not_mem commented,
        code_append_of_not_mem (blank_not_comment blank),
        code_append_of_not_mem (blank_not_comment white), Text.words_gap some blank,
        Text.words_gap kept white]

/-- A row is read as its words, under its number. -/
theorem line?_eq_some_iff {row : List Char} {number : Nat} {line : Line} :
    line? number row = some line ↔
      rowWords row = line.name :: line.params ∧ line.number = number := by
  unfold line? rowWords
  split
  · rename_i silent
    rw [silent]
    simp
  · rename_i name params said
    rw [said]
    constructor
    · intro read
      cases read
      exact ⟨rfl, rfl⟩
    · rintro ⟨words, rfl⟩
      cases words
      rfl

theorem line?_congr {row other : List Char} (same : rowWords other = rowWords row) (number : Nat) :
    line? number other = line? number row := by
  ext line
  rw [line?_eq_some_iff, line?_eq_some_iff, same]

theorem line?_silent {row : List Char} (blank : ∀ c ∈ code row, Text.isBlank c = true)
    (number : Nat) : line? number row = none := by
  rw [line?, Text.words_blank blank]
  rfl

/-! ### Renumbered lines -/

/-- The line under its new number. -/
def Line.moved (move : Nat → Nat) (line : Line) : Line :=
  { line with number := move line.number }

/-- Lines have the numbers of their rows. -/
theorem linesFrom_number {number : Nat} {line : Line} (member : line ∈ linesFrom number rows) :
    number ≤ line.number ∧ line.number < number + rows.length := by
  obtain ⟨place, row, held, read⟩ := mem_linesFrom_iff.mp member
  have numbered := (line?_eq_some_iff.mp read).2
  have inside := (List.getElem?_eq_some_iff.mp held).1
  omega

theorem linesFrom_succ (number : Nat) (rows : List (List Char)) :
    linesFrom (number + 1) rows = (linesFrom number rows).map (Line.moved (· + 1)) := by
  induction rows generalizing number with
  | nil => rfl
  | cons row rest ih =>
    have first : line? (number + 1) row = (line? number row).map (Line.moved (· + 1)) := by
      unfold line?
      split <;> rfl
    rw [linesFrom, linesFrom, ih, first, List.map_append]
    cases line? number row <;> rfl

/-- A row without words moves what is below it. -/
theorem linesFrom_insert {row : List Char} (silent : ∀ number, line? number row = none)
    (before after : List (List Char)) :
    linesFrom 1 (before ++ row :: after) = (linesFrom 1 (before ++ after)).map
      (Line.moved fun n => if n ≤ before.length then n else n + 1) := by
  have above : (linesFrom 1 before).map
      (Line.moved fun n => if n ≤ before.length then n else n + 1) =
      (linesFrom 1 before).map id := by
    apply List.map_congr_left
    intro line member
    have bounds := linesFrom_number member
    rw [Line.moved, if_pos (by omega), id]
  have below : linesFrom (1 + before.length + 1) after = (linesFrom (1 + before.length) after).map
      (Line.moved fun n => if n ≤ before.length then n else n + 1) := by
    rw [linesFrom_succ]
    apply List.map_congr_left
    intro line member
    have bounds := linesFrom_number member
    rw [Line.moved, Line.moved, if_neg (by omega)]
  rw [linesFrom_append, linesFrom_append, linesFrom, silent, List.map_append, above,
    List.map_id, ← below]
  rfl

/-- Lines are those of before, with their new numbers. -/
theorem relaid_lines (relaid : Relaid rows move edited) :
    linesFrom 1 edited = (linesFrom 1 rows).map (Line.moved move) := by
  induction relaid with
  | same => exact (List.map_id _).symm
  | insert row _ blank ih =>
    rw [linesFrom_insert (line?_silent blank), ih, List.map_map]
    rfl
  | respace _ respaced ih =>
    rw [← ih, linesFrom_append, linesFrom_append, linesFrom, linesFrom,
      line?_congr (respaced_words respaced)]

end

/-! ### Reading renumbered lines -/

def Malformed.moved (move : Nat → Nat) : Malformed → Malformed
  | .nested name opened => .nested name (move opened)
  | reason => reason

/-- The error at the new number of its line. -/
def Error.moved (move : Nat → Nat) : Error → Error
  | .malformed line reason => .malformed (move line) (reason.moved move)
  | .unknownCommand line name => .unknownCommand (move line) name

def OpenBlock.moved (move : Nat → Nat) (block : OpenBlock) : OpenBlock :=
  { block with opened := move block.opened }

def Reading.moved (move : Nat → Nat) (reading : Reading) : Reading :=
  { reading with block := reading.block.map (OpenBlock.moved move) }

section

variable (move : Nat → Nat)

/-- What becomes of a reading, or of its failure, when lines get other numbers. -/
def carried : Except Error Reading → Except Error Reading
  | .ok reading => .ok (reading.moved move)
  | .error error => .error (error.moved move)

private theorem openLine_moved (reading : Reading) (line : Line) :
    (reading.moved move).openLine (line.moved move) = carried move (reading.openLine line) := by
  obtain ⟨program, block⟩ := reading
  cases block with
  | some block => rfl
  | none =>
    obtain ⟨number, name, params⟩ := line
    match params with
    | [] => rfl
    | [_] => rfl
    | _ :: _ :: _ => rfl

private theorem closeLine_moved (reading : Reading) (line : Line) :
    (reading.moved move).closeLine (line.moved move) = carried move (reading.closeLine line) := by
  obtain ⟨program, block⟩ := reading
  obtain ⟨number, name, params⟩ := line
  cases params with
  | cons _ _ => rfl
  | nil =>
    cases block with
    | none => rfl
    | some block =>
      have inserts : (block.moved move).function = block.function := rfl
      unfold Reading.closeLine
      dsimp only [Reading.moved, Line.moved, Option.map]
      rw [inserts]
      cases program.insert block.function <;> rfl

private theorem commandLine_moved (reading : Reading) (line : Line) :
    (reading.moved move).commandLine (line.moved move) =
      carried move (reading.commandLine line) := by
  obtain ⟨program, block⟩ := reading
  unfold Reading.commandLine
  dsimp only [Line.moved]
  cases Command.parse line.name line.params with
  | error error => cases error <;> rfl
  | ok command => cases block <;> rfl

theorem line_moved (reading : Reading) (line : Line) :
    (reading.moved move).line (line.moved move) = carried move (reading.line line) := by
  have name : (line.moved move).name = line.name := rfl
  rw [Reading.line, Reading.line, name, openLine_moved, closeLine_moved, commandLine_moved]
  split
  · rfl
  · split <;> rfl

theorem foldlM_moved (lines : List Line) (reading : Reading) :
    (lines.map (Line.moved move)).foldlM Reading.line (reading.moved move) =
      carried move (lines.foldlM Reading.line reading) := by
  induction lines generalizing reading with
  | nil => rfl
  | cons line rest ih =>
    rw [List.map_cons, List.foldlM_cons, List.foldlM_cons, line_moved]
    cases reading.line line with
    | error error => rfl
    | ok next => exact ih next

/-- Lines with other numbers are read as the same program, or fail for the same reason. -/
theorem parseLines_moved (lines : List Line) :
    parseLines (lines.map (Line.moved move)) = (parseLines lines).mapError (Error.moved move) := by
  have read := foldlM_moved move lines Reading.start
  have start : Reading.start.moved move = Reading.start := rfl
  rw [start] at read
  rw [parseLines, parseLines, read]
  cases lines.foldlM Reading.line Reading.start with
  | error error => rfl
  | ok reading =>
    obtain ⟨program, block⟩ := reading
    cases block <;> rfl

end

/-! ### Texts -/

/-- Where the error is. -/
def Error.line : Error → Nat
  | .malformed line _ => line
  | .unknownCommand line _ => line

/-- Layout does not matter. A text and one that was made from it by adding comments and blank
rows and by changing blanks have the same lines, in the same order. Both are read as the same
program, and then their listings and fingerprints agree too; or both fail for the same reason,
each at the place to which the row of the other was moved. -/
theorem parse_relaid {source other : String} {move : Nat → Nat}
    (relaid : Relaid (Text.lines source.toList) move (Text.lines other.toList)) :
    (∀ m n, m < n → move m < move n) ∧
    tokenize other = (tokenize source).map (Line.moved move) ∧
    (tokenize other).map (fun line => (line.name, line.params)) =
      (tokenize source).map (fun line => (line.name, line.params)) ∧
    ((∃ program, parse source = .ok program ∧ parse other = .ok program) ∨
      ∃ error, parse source = .error error ∧ parse other = .error (error.moved move) ∧
        (error.moved move).line = move error.line) := by
  have lines : tokenize other = (tokenize source).map (Line.moved move) := relaid_lines relaid
  refine ⟨fun m n => relaid_ordered relaid, lines, ?_, ?_⟩
  · rw [lines, List.map_map]
    rfl
  · have read : parse other = (parse source).mapError (Error.moved move) := by
      rw [parse, parse, lines, parseLines_moved]
    rw [read]
    cases parse source with
    | ok program => exact .inl ⟨program, rfl, rfl⟩
    | error error => exact .inr ⟨error, rfl, rfl, by cases error <;> rfl⟩

private def layoutDemo : String := "start f\r\nstart g"

private def layoutDemoEdited : String := "; note\n\tstart  f;;\n\nstart g "

/-- Both lines of the error follow their rows. -/
theorem parse_relaid_nested :
    (∃ move, Relaid (Text.lines layoutDemo.toList) move (Text.lines layoutDemoEdited.toList) ∧
      move 1 = 2 ∧ move 2 = 4) ∧
    parse layoutDemo = .error (.malformed 2 (.nested "f" 1)) ∧
    parse layoutDemoEdited = .error (.malformed 4 (.nested "f" 2)) := by
  have failed : parse layoutDemo = .error (.malformed 2 (.nested "f" 1)) := by rfl
  have blank : ∀ c ∈ [' '], Text.isBlank c = true := List.forall_mem_singleton.mpr rfl
  have noted := @Relaid.insert (Text.lines layoutDemo.toList) _ [] _ "; note".toList .same
    (List.forall_mem_nil _)
  have spread := @Relaid.insert _ _ ["; note".toList, "start f\r".toList] ["start g".toList] []
    noted (List.forall_mem_nil _)
  have commented := @Relaid.respace _ _ ["; note".toList] [[], "start g".toList] _ _ spread
    (.comment "start f".toList ['\r'] [';'] (List.forall_mem_singleton.mpr rfl))
  have widened := @Relaid.respace _ _ ["; note".toList] [[], "start g".toList] _ _ commented
    (.gap "start".toList [' '] [' ', ' '] "f;;".toList (List.cons_ne_nil _ _)
      (List.cons_ne_nil _ _) blank
      (List.forall_mem_cons.mpr ⟨rfl, blank⟩))
  have indented := @Relaid.respace _ _ ["; note".toList] [[], "start g".toList] _ _ widened
    (.lead "start  f;;".toList ['\t'] (List.forall_mem_singleton.mpr rfl))
  have ended := @Relaid.respace _ _ ["; note".toList, "\tstart  f;;".toList, []] [] _ _ indented
    (.trail "start g".toList [' '] blank)
  obtain ⟨-, -, -, read⟩ := @parse_relaid layoutDemo layoutDemoEdited _ ended
  rcases read with ⟨program, accepted, -⟩ | ⟨error, refused, moved, -⟩
  · cases failed.symm.trans accepted
  · cases failed.symm.trans refused
    exact ⟨⟨_, ended, rfl, rfl⟩, failed, moved⟩

end Source

end Dataflow
