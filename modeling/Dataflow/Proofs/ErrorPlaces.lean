import Dataflow.Proofs.BlockGrammar
import Dataflow.Proofs.SourceLayout

/-! Where a source is reported to be wrong. Reading stops at the first line that does not fit
what was read before, so nothing below that line has a part in the error, and what is above it
can at most lack the end of its last block. A block that is never finished is reported at its
own first line, the last one that opens a block. -/
namespace Dataflow.Source

variable {rows : List (List Char)} {row : List Char} {lines before after : List Line}
  {line : Line} {error : Error} {reading next : Reading}

/-! ### Rows and their lines -/

/-- The rows as a text, each with its line feed. -/
def rowsText (rows : List (List Char)) : String :=
  String.ofList (rows.flatMap (· ++ ['\n']))

/-- Rows with the same words are read as the same lines. -/
theorem linesFrom_congr {others : List (List Char)} (same : others.map rowWords = rows.map rowWords)
    (number : Nat) : linesFrom number others = linesFrom number rows := by
  induction rows generalizing others number with
  | nil =>
    cases List.map_eq_nil_iff.mp same
    rfl
  | cons row rest ih =>
    obtain ⟨first, later, rfl, here, below⟩ := List.map_eq_cons_iff.mp same
    rw [linesFrom, linesFrom, line?_congr here, ih below]

/-- A line has its row, and the lines above and below are those of the rows above and below. -/
theorem linesFrom_split {number : Nat} (split : linesFrom number rows = before ++ line :: after) :
    ∃ above row below, rows = above ++ row :: below ∧ linesFrom number above = before ∧
      rowWords row = line.name :: line.params ∧ line.number = number + above.length ∧
      linesFrom (number + above.length + 1) below = after := by
  induction rows generalizing number before with
  | nil => cases before <;> cases split
  | cons row rest ih =>
    -- A row above the one with the line contributes its own line, or none, to `before`.
    have above : ∀ {front}, (line? number row).toList ++ front = before →
        linesFrom (number + 1) rest = front ++ line :: after →
        ∃ above held below, row :: rest = above ++ held :: below ∧ linesFrom number above = before ∧
          rowWords held = line.name :: line.params ∧ line.number = number + above.length ∧
          linesFrom (number + above.length + 1) below = after := by
      intro front joined later
      obtain ⟨above, held, below, rfl, upper, words, place, lower⟩ := ih later
      have shifted : number + 1 + above.length = number + (row :: above).length := by
        rw [List.length_cons]
        omega
      rw [shifted] at place lower
      exact ⟨row :: above, held, below, rfl, by rw [linesFrom, upper, joined], words, place, lower⟩
    rw [linesFrom] at split
    cases read : line? number row with
    | none =>
      rw [read] at split above
      exact above rfl split
    | some first =>
      rw [read] at split above
      cases before with
      | nil =>
        obtain ⟨rfl, rest⟩ := List.cons.inj split
        obtain ⟨words, place⟩ := line?_eq_some_iff.mp read
        exact ⟨[], row, _, rfl, rfl, words, place, rest⟩
      | cons head tail =>
        obtain ⟨rfl, rest⟩ := List.cons.inj split
        exact above rfl rest

/-- Exactly the words of the rows are the words of the lines. -/
theorem row_iff_line {number : Nat} {name : String} {params : List String} :
    (∃ row ∈ rows, rowWords row = name :: params) ↔
      ∃ line ∈ linesFrom number rows, line.name = name ∧ line.params = params := by
  constructor
  · rintro ⟨row, member, words⟩
    obtain ⟨place, held⟩ := List.mem_iff_getElem?.mp member
    have read : line? (number + place) row = some ⟨number + place, name, params⟩ :=
      line?_eq_some_iff.mpr ⟨words, rfl⟩
    exact ⟨_, mem_linesFrom_iff.mpr ⟨place, row, held, read⟩, rfl, rfl⟩
  · rintro ⟨line, member, rfl, rfl⟩
    obtain ⟨place, row, held, read⟩ := mem_linesFrom_iff.mp member
    exact ⟨row, List.mem_of_getElem? held, (line?_eq_some_iff.mp read).1⟩

theorem lines_single {text : List Char} (member : row ∈ Text.lines text) : '\n' ∉ row :=
  fun inside => absurd (Text.mem_splitOnP member inside).1 (by decide)

theorem tokenize_rowsText (single : ∀ row ∈ rows, '\n' ∉ row) :
    tokenize (rowsText rows) = linesFrom 1 rows := by
  have cut := Text.lines_rows single []
  rw [List.append_nil] at cut
  rw [tokenize, rowsText, String.toList_ofList, cut, linesFrom_append]
  exact List.append_nil _

/-! ### The line that fails -/

/-- The name of the block that is never finished, if that is the error. -/
def Error.unfinished? : Error → Option String
  | .malformed _ (.unfinished name) => some name
  | _ => none

/-- A line that cannot be read is where the error is. -/
theorem line_error (failed : reading.line line = .error error) :
    error.line = line.number ∧ error.unfinished? = none := by
  unfold Reading.line at failed
  split at failed
  · unfold Reading.openLine at failed
    split at failed
    · cases failed
      exact ⟨rfl, rfl⟩
    · split at failed
      · cases failed
      · cases failed
        exact ⟨rfl, rfl⟩
  · split at failed
    · unfold Reading.closeLine at failed
      split at failed
      · cases failed
        exact ⟨rfl, rfl⟩
      · split at failed
        · cases failed
          exact ⟨rfl, rfl⟩
        · split at failed
          · cases failed
          · cases failed
            exact ⟨rfl, rfl⟩
    · unfold Reading.commandLine at failed
      split at failed
      · cases failed
        exact ⟨rfl, rfl⟩
      · cases failed
        exact ⟨rfl, rfl⟩
      · split at failed
        · cases failed
          exact ⟨rfl, rfl⟩
        · cases failed

theorem foldlM_error (failed : lines.foldlM Reading.line reading = .error error) :
    ∃ before line after next, lines = before ++ line :: after ∧
      before.foldlM Reading.line reading = .ok next ∧ next.line line = .error error := by
  induction lines generalizing reading with
  | nil => cases failed
  | cons first rest ih =>
    rw [List.foldlM_cons] at failed
    cases read : reading.line first with
    | error stop =>
      rw [read] at failed
      cases failed
      exact ⟨[], first, rest, reading, rfl, rfl, read⟩
    | ok middle =>
      rw [read] at failed
      obtain ⟨before, line, after, next, rfl, accepted, fails⟩ := ih failed
      refine ⟨first :: before, line, after, next, rfl, ?_, fails⟩
      rw [List.foldlM_cons, read]
      exact accepted

/-- What is below a line that fails is not read. -/
theorem parseLines_error (accepted : before.foldlM Reading.line .start = .ok reading)
    (failed : reading.line line = .error error) (after : List Line) :
    parseLines (before ++ line :: after) = .error error := by
  rw [parseLines, List.foldlM_append, accepted]
  change (List.foldlM Reading.line reading (line :: after)).bind Reading.finish = _
  rw [List.foldlM_cons, failed]
  rfl

/-- Lines that were all read can lack no more than the end of a block. -/
theorem parseLines_accepted (accepted : lines.foldlM Reading.line .start = .ok reading) :
    (∃ program, parseLines lines = .ok program) ∨
      ∃ error name, parseLines lines = .error error ∧ error.unfinished? = some name := by
  rw [parseLines, accepted]
  obtain ⟨program, block⟩ := reading
  cases block with
  | none => exact .inl ⟨program, rfl⟩
  | some block => exact .inr ⟨_, _, rfl, rfl⟩

/-! ### The block that is never finished -/

theorem foldl_add_opened (commands : List Command) (block : OpenBlock) :
    (commands.foldl OpenBlock.add block).opened = block.opened := by
  induction commands generalizing block with
  | nil => rfl
  | cons command rest ih => exact ih (block.add command)

/-- An open block is recorded with the line that opened it. Only commands have followed. -/
theorem accepted_opened {program : Program} {block : OpenBlock}
    (accepted : lines.foldlM Reading.line .start = .ok ⟨program, some block⟩) :
    ∃ before body, lines = before ++ ⟨block.opened, "start", [block.function.name]⟩ :: body ∧
      Blocks before program.functions ∧ Body body block.function.commands := by
  have reads := reads_lines (.between .nil) accepted
  generalize whole : [] ++ lines = read at reads
  rw [List.nil_append] at whole
  cases reads with
  | @inside before body opening _ _ blocks opens named holds =>
    -- The same lines are read again, from the blocks on, to see what became of the number.
    obtain ⟨final, first, all⟩ := fold_blocks blocks .empty program.distinct
    have again : lines.foldlM Reading.line .start = .ok ⟨final, some
        (block.function.commands.foldl OpenBlock.add
          ⟨opening.number, ⟨block.function.name, []⟩⟩)⟩ := by
      rw [whole, List.foldlM_append, show Reading.start = ⟨.empty, none⟩ from rfl, first]
      change List.foldlM Reading.line _ (opening :: body) = _
      rw [List.foldlM_cons, line_ok_iff.mpr (.start opens named)]
      exact fold_body holds final _
    have recorded := (Reading.mk.inj (Except.ok.inj (accepted.symm.trans again))).2
    have number : block.opened = opening.number := by
      rw [Option.some.inj recorded, foldl_add_opened]
    refine ⟨before, body, ?_, blocks, holds⟩
    rw [whole, number, ← opens, ← named]

theorem body_names {commands : List Command} (body : Body lines commands) (member : line ∈ lines) :
    line.name ≠ "start" ∧ line.name ≠ "finish" := by
  induction body with
  | nil => cases member
  | cons notStart notFinish _ _ ih =>
    rcases List.mem_cons.mp member with rfl | later
    · exact ⟨notStart, notFinish⟩
    · exact ih later

/-- The names of blocks are those of the lines that open them. -/
theorem blocks_names {functions : List Function} (blocks : Blocks lines functions) {name : String} :
    name ∈ functions.map (·.name) ↔ ∃ line ∈ lines, line.name = "start" ∧ line.params = [name] := by
  induction blocks with
  | nil => simp
  | @cons opening closing body rest function functions opens named holds closes _ _ ih =>
    have inside : ¬ ∃ line ∈ body, line.name = "start" ∧ line.params = [name] := by
      rintro ⟨line, member, start, -⟩
      exact (body_names holds member).1 start
    have ends : ¬ closing.name = "start" := by
      rw [closes]
      decide
    simp only [List.map_cons, List.mem_cons, List.mem_append, or_and_right, exists_or,
      exists_eq_left, opens, named, inside, ends, ih]
    simp [eq_comm]

/-- One more `finish` closes the block, unless its name is taken. -/
theorem parseLines_closing {program : Program} {block : OpenBlock} {closing : Line}
    (accepted : lines.foldlM Reading.line .start = .ok ⟨program, some block⟩)
    (closes : closing.name = "finish") (plain : closing.params = []) :
    (∃ next, parseLines (lines ++ [closing]) = .ok next) ↔
      block.function.name ∉ program.functions.map (·.name) := by
  have read : (lines ++ [closing]).foldlM Reading.line .start =
      Reading.line ⟨program, some block⟩ closing := by
    rw [List.foldlM_append, accepted]
    exact bind_pure (Reading.line ⟨program, some block⟩ closing)
  rw [parseLines, read]
  constructor
  · rintro ⟨final, parsed⟩
    cases closed : Reading.line ⟨program, some block⟩ closing with
    | error stop =>
      rw [closed] at parsed
      cases parsed
    | ok next =>
      cases line_ok_iff.mp closed with
      | command _ notFinish _ => exact absurd closes notFinish
      | @finish _ next _ _ inserted =>
        have distinct := next.distinct
        rw [Program.insert_ok inserted, List.map_append, List.nodup_append] at distinct
        exact fun taken => distinct.2.2 _ taken _ (List.mem_singleton_self _) rfl
  · intro new
    obtain ⟨next, inserted⟩ := Program.insert_new new
    refine ⟨next, ?_⟩
    rw [line_ok_iff.mpr (.finish closes plain inserted)]
    rfl

/-! ### Texts -/

theorem tokenize_append_line (source : String) :
    ∃ number, tokenize (source ++ "\nfinish") = tokenize source ++ [⟨number, "finish", []⟩] := by
  have rows : Text.lines (source ++ "\nfinish").toList =
      Text.lines source.toList ++ ["finish".toList] := by
    rw [String.toList_append]
    exact List.splitOn_append_cons_self _ _
  refine ⟨1 + (Text.lines source.toList).length, ?_⟩
  rw [tokenize, rows, linesFrom_append]
  rfl

private theorem failing_line_place {source : String}
    (failed : (tokenize source).foldlM Reading.line .start = .error error) :
    ∃ before row after, Text.lines source.toList = before ++ row :: after ∧
      error.line = before.length + 1 ∧ rowWords row ≠ [] ∧ error.unfinished? = none ∧
      ((∃ program, parse (rowsText before) = .ok program) ∨
        ∃ stop name, parse (rowsText before) = .error stop ∧ stop.unfinished? = some name) ∧
      ∀ other : String,
        ((Text.lines other.toList).take error.line).map rowWords = (before ++ [row]).map rowWords →
        parse other = .error error := by
  obtain ⟨before, line, after, reading, split, accepted, fails⟩ := foldlM_error failed
  obtain ⟨above, row, below, rows, upper, words, place, -⟩ := linesFrom_split split
  obtain ⟨here, other⟩ := line_error fails
  have number : error.line = above.length + 1 := by
    rw [here, place, Nat.add_comm]
  refine ⟨above, row, below, rows, number, ?_, other, ?_, ?_⟩
  · rw [words]
    exact List.cons_ne_nil _ _
  · have single : ∀ held ∈ above, '\n' ∉ held := by
      intro held member
      have whole : held ∈ Text.lines source.toList := by
        rw [rows]
        exact List.mem_append_left _ member
      exact lines_single whole
    rw [parse, tokenize_rowsText single, upper]
    exact parseLines_accepted accepted
  · intro other agrees
    have first : linesFrom 1 ((Text.lines other.toList).take error.line) = before ++ [line] := by
      have read : linesFrom (1 + above.length) [row] = [line] := by
        rw [linesFrom, line?_eq_some_iff.mpr ⟨words, place⟩]
        rfl
      rw [linesFrom_congr agrees, linesFrom_append, upper, read]
    rw [parse, tokenize, ← List.take_append_drop error.line (Text.lines other.toList),
      linesFrom_append, first, List.append_assoc, List.singleton_append]
    exact parseLines_error accepted fails _

private theorem unfinished_block_place {source : String} {program : Program} {block : OpenBlock}
    (accepted : (tokenize source).foldlM Reading.line .start = .ok ⟨program, some block⟩) :
    ∃ before row after, Text.lines source.toList = before ++ row :: after ∧
      block.opened = before.length + 1 ∧ rowWords row = ["start", block.function.name] ∧
      (∀ later ∈ after, (rowWords later).head? ≠ some "start" ∧
        (rowWords later).head? ≠ some "finish") ∧
      ((∃ program, parse (source ++ "\nfinish") = .ok program) ↔
        ∀ earlier ∈ before, rowWords earlier ≠ ["start", block.function.name]) := by
  obtain ⟨before, body, split, blocks, holds⟩ := accepted_opened accepted
  obtain ⟨above, row, below, rows, upper, words, place, lower⟩ := linesFrom_split split
  refine ⟨above, row, below, rows, ?_, words, ?_, ?_⟩
  · rw [Nat.add_comm]
    exact place
  · intro later member
    have names : ∀ name, (rowWords later).head? = some name → name ≠ "start" ∧ name ≠ "finish" := by
      intro name first
      obtain ⟨params, said⟩ := List.head?_eq_some_iff.mp first
      obtain ⟨line, held, rfl, -⟩ := row_iff_line.mp ⟨later, member, said⟩
      rw [lower] at held
      exact body_names holds held
    exact ⟨fun start => (names _ start).1 rfl, fun finish => (names _ finish).2 rfl⟩
  · obtain ⟨number, closed⟩ := tokenize_append_line source
    rw [parse, closed, parseLines_closing accepted rfl rfl, blocks_names blocks, ← upper,
      ← row_iff_line]
    simp

/-- An error is at the first line that is wrong. The line that it names is one of the source
and has words. If a line could not be read, then the lines above it can, but for the end of
a block perhaps, and every text with the same words in the lines up to this one fails with the
same error. If a block is never finished, then the line is the last one that opens a block, no
line below it closes one, and a further line that does so makes the text a program exactly if
no block above has the name. -/
theorem parse_error_place {source : String} (failed : parse source = .error error) :
    ∃ before row after, Text.lines source.toList = before ++ row :: after ∧
      error.line = before.length + 1 ∧ rowWords row ≠ [] ∧
      (error.unfinished? = none →
        ((∃ program, parse (rowsText before) = .ok program) ∨
          ∃ stop name, parse (rowsText before) = .error stop ∧ stop.unfinished? = some name) ∧
        ∀ other : String,
          ((Text.lines other.toList).take error.line).map rowWords =
            (before ++ [row]).map rowWords → parse other = .error error) ∧
      ∀ name, error.unfinished? = some name →
        rowWords row = ["start", name] ∧
        (∀ later ∈ after, (rowWords later).head? ≠ some "start" ∧
          (rowWords later).head? ≠ some "finish") ∧
        ((∃ program, parse (source ++ "\nfinish") = .ok program) ↔
          ∀ earlier ∈ before, rowWords earlier ≠ ["start", name]) := by
  cases scanned : (tokenize source).foldlM Reading.line .start with
  | error stop =>
    obtain rfl : stop = error := by
      rw [parse, parseLines, scanned] at failed
      exact Except.error.inj failed
    obtain ⟨before, row, after, rows, place, words, other, above, agrees⟩ :=
      failing_line_place scanned
    refine ⟨before, row, after, rows, place, words, fun _ => ⟨above, agrees⟩, ?_⟩
    intro name unfinished
    cases other.symm.trans unfinished
  | ok reading =>
    rw [parse, parseLines, scanned] at failed
    obtain ⟨program, block⟩ := reading
    cases block with
    | none => cases failed
    | some block =>
      cases failed
      obtain ⟨before, row, after, rows, place, words, last, closing⟩ :=
        unfinished_block_place scanned
      refine ⟨before, row, after, rows, place, ?_, ?_, ?_⟩
      · rw [words]
        exact List.cons_ne_nil _ _
      · intro other
        cases other
      · intro name unfinished
        cases unfinished
        exact ⟨words, last, closing⟩

private def placeDemo : String := "start f\n\n; note\nbogus 1\nfinish"

private def placeDemoOpen : String := "start f\nfinish\nstart f\n push g"

/-- A command that does not exist fails whatever is below it, and an open block whose name is
taken is not helped by closing it. -/
theorem parse_error_place_demos :
    parse placeDemo = .error (.unknownCommand 4 "bogus") ∧
    parse "start f ; again\n\n\n bogus\t1\nstart" = .error (.unknownCommand 4 "bogus") ∧
    parse placeDemoOpen = .error (.malformed 3 (.unfinished "f")) ∧
    ¬ ∃ program, parse (placeDemoOpen ++ "\nfinish") = .ok program := by
  have unknown : parse placeDemo = .error (.unknownCommand 4 "bogus") := by rfl
  have unfinished : parse placeDemoOpen = .error (.malformed 3 (.unfinished "f")) := by rfl
  refine ⟨unknown, ?_, unfinished, ?_⟩
  · obtain ⟨before, row, after, rows, place, -, fails, -⟩ := parse_error_place unknown
    have cut : ["start f".toList, [], "; note".toList] ++ ["bogus 1".toList, "finish".toList] =
        before ++ row :: after := rows
    obtain ⟨rfl, rest⟩ := List.append_inj cut (Nat.succ.inj place)
    cases rest
    exact (fails rfl).2 _ (by rfl)
  · obtain ⟨before, row, after, rows, place, -, -, block⟩ := parse_error_place unfinished
    have cut : ["start f".toList, "finish".toList] ++ ["start f".toList, " push g".toList] =
        before ++ row :: after := rows
    obtain ⟨rfl, rest⟩ := List.append_inj cut (Nat.succ.inj place)
    intro closed
    exact (block "f" rfl).2.2.mp closed _ List.mem_cons_self (by rfl)

end Dataflow.Source
