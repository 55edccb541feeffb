import Dataflow.Source.Block

/-! The grammar of programs. A block is described as it stands in the source: an opening
line that names a function, lines that are commands, and a closing line. Reading goes over
the lines with at most one block open. It accepts exactly the sequences of blocks whose
names are distinct, and there is one way at most to cut given lines into blocks. -/
namespace Dataflow

/-! ### Function tables -/

namespace FunctionTable

variable {table : FunctionTable} {function : Function} {name : String}

theorem Agrees.contains_iff (agrees : table.Agrees) :
    table.contains name = true ↔ name ∈ table.functions.map (·.name) := by
  rw [contains, Option.isSome_iff_exists, List.mem_map]
  constructor
  · rintro ⟨place, noted⟩
    obtain ⟨function, held, named⟩ := (agrees name place).mp noted
    exact ⟨function, List.mem_of_getElem? held, named⟩
  · rintro ⟨function, member, named⟩
    obtain ⟨place, held⟩ := List.mem_iff_getElem?.mp member
    exact ⟨place, (agrees name place).mpr ⟨function, held, named⟩⟩

/-- Looking a name up finds the function of that name, wherever it stands. -/
theorem Agrees.get_ok_iff (agrees : table.Agrees) :
    table.get name = .ok (some function) ↔
      function ∈ table.functions ∧ function.name = name := by
  constructor
  · intro found
    unfold get at found
    split at found
    · cases found
    · rename_i place noted
      obtain ⟨there, held, named⟩ := (agrees name place).mp noted
      rw [held] at found
      cases found
      exact ⟨List.mem_of_getElem? held, named⟩
  · rintro ⟨member, named⟩
    obtain ⟨place, held⟩ := List.mem_iff_getElem?.mp member
    have noted := (agrees name place).mpr ⟨function, held, named⟩
    simp only [get, noted, held]

end FunctionTable

namespace Program

variable {program next : Program} {function : Function}

theorem contains_iff {name : String} :
    program.contains name = true ↔ name ∈ program.functions.map (·.name) :=
  program.agrees.contains_iff

theorem get_eq (program : Program) (name : String) :
    program.get name = .ok (program.get? name) := by
  unfold get?
  split
  · assumption
  · rename_i place found
    exact absurd found (program.agrees.get_ne_error name place)

theorem get?_eq_some_iff {name : String} :
    program.get? name = some function ↔ function ∈ program.functions ∧ function.name = name := by
  rw [← program.agrees.get_ok_iff, get_eq, Except.ok.injEq]

/-- Inserting into a program is inserting into its table. -/
theorem insert_table (program : Program) (function : Function) :
    (program.insert function).map (·.toFunctionTable) =
      program.toFunctionTable.insert function := by
  unfold insert
  split
  · rename_i table inserted
    exact inserted.symm
  · rename_i refused rejected
    exact rejected.symm

theorem insert_ok (inserted : program.insert function = .ok next) :
    next.functions = program.functions ++ [function] := by
  have both := program.insert_table function
  rw [inserted] at both
  exact (FunctionTable.insert_ok both.symm).2.1

theorem insert_new (new : function.name ∉ program.functions.map (·.name)) :
    ∃ next, program.insert function = .ok next := by
  have absent : ¬ program.contains function.name = true := fun held => new (contains_iff.mp held)
  have accepted : program.toFunctionTable.insert function = .ok _ := if_neg absent
  rw [← insert_table] at accepted
  cases inserted : program.insert function with
  | ok next => exact ⟨next, rfl⟩
  | error refused =>
    rw [inserted] at accepted
    cases accepted

end Program

namespace Source

/-! ### Blocks -/

/-- Lines that are commands, and what they decode to. -/
inductive Body : List Line → List Command → Prop where
  | nil : Body [] []
  | cons {line : Line} {command : Command} {lines : List Line} {commands : List Command}
      (notStart : line.name ≠ "start") (notFinish : line.name ≠ "finish")
      (decoded : Command.parse line.name line.params = .ok command)
      (later : Body lines commands) : Body (line :: lines) (command :: commands)

/-- Blocks one after another, and the functions that they define. -/
inductive Blocks : List Line → List Function → Prop where
  | nil : Blocks [] []
  | cons {opening closing : Line} {body lines : List Line} {function : Function}
      {functions : List Function} (opens : opening.name = "start")
      (named : opening.params = [function.name]) (holds : Body body function.commands)
      (closes : closing.name = "finish") (plain : closing.params = [])
      (later : Blocks lines functions) :
      Blocks (opening :: (body ++ closing :: lines)) (function :: functions)

variable {lines more : List Line} {commands others : List Command}
  {functions given : List Function}

theorem Body.append (body : Body lines commands) (rest : Body more others) :
    Body (lines ++ more) (commands ++ others) := by
  induction body with
  | nil => exact rest
  | cons notStart notFinish decoded _ ih => exact .cons notStart notFinish decoded ih

theorem Blocks.append (blocks : Blocks lines functions) (rest : Blocks more given) :
    Blocks (lines ++ more) (functions ++ given) := by
  induction blocks with
  | nil => exact rest
  | cons opens named holds closes plain _ ih =>
    rw [List.cons_append, List.append_assoc]
    exact .cons opens named holds closes plain ih

private theorem body_unique {closing last : Line} {rest tail : List Line}
    (body : Body lines commands) (other : Body more others) (closes : closing.name = "finish")
    (ends : last.name = "finish") (same : lines ++ closing :: rest = more ++ last :: tail) :
    commands = others ∧ rest = tail := by
  induction body generalizing more others with
  | nil =>
    cases other with
    | nil =>
      cases same
      exact ⟨rfl, rfl⟩
    | cons _ notFinish _ _ =>
      -- The first line named `finish` closes the block, so no body goes on past it.
      cases same
      exact absurd closes notFinish
  | cons _ notFinish decoded _ ih =>
    cases other with
    | nil =>
      cases same
      exact absurd ends notFinish
    | cons _ _ decoded' later =>
      obtain ⟨rfl, below⟩ := List.cons.inj same
      cases decoded.symm.trans decoded'
      obtain ⟨rfl, rfl⟩ := ih later below
      exact ⟨rfl, rfl⟩

/-- The grammar is unambiguous. -/
theorem blocks_unique (blocks : Blocks lines functions) (others : Blocks lines given) :
    functions = given := by
  induction blocks generalizing given with
  | nil =>
    cases others with
    | nil => rfl
  | @cons opening closing body rest function functions opens named holds closes plain _ ih =>
    generalize whole : opening :: (body ++ closing :: rest) = lines at others
    cases others with
    | nil => cases whole
    | @cons _ last held tail other given _ named' holds' ends _ later =>
      obtain ⟨rfl, same⟩ := List.cons.inj whole
      obtain ⟨commands, rfl⟩ := body_unique holds holds' closes ends same
      have name : function.name = other.name := by simpa using named.symm.trans named'
      obtain rfl : function = other := by
        cases function
        cases other
        cases name
        cases commands
        rfl
      rw [ih later]

/-! ### Reading a line -/

/-- The block with one more command. -/
def OpenBlock.add (block : OpenBlock) (command : Command) : OpenBlock :=
  { block with
    function := { block.function with commands := block.function.commands ++ [command] } }

/-- What a line does to the functions read so far and the block that is open. -/
inductive Takes (program : Program) (line : Line) : Option OpenBlock → Reading → Prop where
  | start {name : String} (opens : line.name = "start") (named : line.params = [name]) :
      Takes program line none ⟨program, some ⟨line.number, ⟨name, []⟩⟩⟩
  | finish {block : OpenBlock} {next : Program} (closes : line.name = "finish")
      (plain : line.params = []) (inserted : program.insert block.function = .ok next) :
      Takes program line (some block) ⟨next, none⟩
  | command {block : OpenBlock} {command : Command} (notStart : line.name ≠ "start")
      (notFinish : line.name ≠ "finish")
      (decoded : Command.parse line.name line.params = .ok command) :
      Takes program line (some block) ⟨program, some (block.add command)⟩

variable {reading next : Reading} {line : Line}

/-- A line is read exactly as one of the rules says. -/
theorem line_ok_iff :
    reading.line line = .ok next ↔ Takes reading.program line reading.block next := by
  obtain ⟨program, block⟩ := reading
  constructor
  · intro read
    unfold Reading.line at read
    split at read
    · rename_i opens
      unfold Reading.openLine at read
      split at read
      · cases read
      · rename_i none
        cases none
        split at read
        · rename_i name named
          cases read
          exact .start opens named
        · cases read
    · rename_i notStart
      split at read
      · rename_i closes
        unfold Reading.closeLine at read
        split at read
        · cases read
        · rename_i plain
          split at read
          · cases read
          · rename_i held
            cases held
            split at read
            · rename_i inserted
              cases read
              exact .finish closes (by simpa using plain) inserted
            · cases read
      · rename_i notFinish
        unfold Reading.commandLine at read
        split at read
        · cases read
        · cases read
        · rename_i command decoded
          split at read
          · cases read
          · rename_i held
            cases held
            cases read
            exact .command notStart notFinish decoded
  · intro takes
    cases takes with
    | start opens named => simp [Reading.line, opens, Reading.openLine, named]
    | finish closes plain inserted =>
      simp [Reading.line, closes, Reading.closeLine, plain, inserted]
    | command notStart notFinish decoded =>
      simp [Reading.line, notStart, notFinish, Reading.commandLine, decoded, OpenBlock.add]

/-! ### Reading accepts blocks only -/

/-- The lines read so far are blocks, and the beginning of one more if a block is open. -/
inductive Reads : List Line → Reading → Prop where
  | between {lines : List Line} {program : Program} (blocks : Blocks lines program.functions) :
      Reads lines ⟨program, none⟩
  | inside {before body : List Line} {opening : Line} {program : Program} {block : OpenBlock}
      (blocks : Blocks before program.functions) (opens : opening.name = "start")
      (named : opening.params = [block.function.name])
      (holds : Body body block.function.commands) :
      Reads (before ++ opening :: body) ⟨program, some block⟩

theorem reads_line (reads : Reads lines reading) (read : reading.line line = .ok next) :
    Reads (lines ++ [line]) next := by
  cases reads with
  | between blocks =>
    cases line_ok_iff.mp read with
    | start opens named => exact .inside blocks opens named .nil
  | @inside before body opening program block blocks opens named holds =>
    rw [List.append_assoc, List.cons_append]
    cases line_ok_iff.mp read with
    | finish closes plain inserted =>
      refine .between ?_
      rw [Program.insert_ok inserted]
      exact blocks.append (.cons opens named holds closes plain .nil)
    | command notStart notFinish decoded =>
      exact .inside blocks opens named (holds.append (.cons notStart notFinish decoded .nil))

theorem reads_lines (reads : Reads lines reading)
    (read : more.foldlM Reading.line reading = .ok next) : Reads (lines ++ more) next := by
  induction more generalizing lines reading with
  | nil =>
    cases read
    simpa using reads
  | cons line rest ih =>
    rw [List.foldlM_cons] at read
    cases first : reading.line line with
    | error error => simp [first, bind, Except.bind] at read
    | ok middle =>
      rw [first] at read
      have later := ih (reads_line reads first) read
      rwa [List.append_assoc] at later

/-! ### Reading accepts all blocks -/

theorem fold_body (body : Body lines commands) (program : Program) (block : OpenBlock) :
    lines.foldlM Reading.line ⟨program, some block⟩ =
      .ok ⟨program, some (commands.foldl OpenBlock.add block)⟩ := by
  induction body generalizing block with
  | nil => rfl
  | cons notStart notFinish decoded _ ih =>
    rw [List.foldlM_cons, line_ok_iff.mpr (.command notStart notFinish decoded)]
    exact ih _

theorem foldl_add (commands : List Command) (block : OpenBlock) :
    (commands.foldl OpenBlock.add block).function =
      { block.function with commands := block.function.commands ++ commands } := by
  induction commands generalizing block with
  | nil => simp
  | cons command rest ih =>
    rw [List.foldl_cons, ih]
    simp [OpenBlock.add]

/-- Blocks with new and distinct names are read one after another. -/
theorem fold_blocks (blocks : Blocks lines functions) (program : Program)
    (distinct : ((program.functions ++ functions).map (·.name)).Nodup) :
    ∃ final : Program, lines.foldlM Reading.line ⟨program, none⟩ = .ok ⟨final, none⟩ ∧
      final.functions = program.functions ++ functions := by
  induction blocks generalizing program with
  | nil => exact ⟨program, rfl, (List.append_nil _).symm⟩
  | @cons opening closing body rest function functions opens named holds closes plain _ ih =>
    have new : function.name ∉ program.functions.map (·.name) := by
      intro held
      rw [List.map_append, List.nodup_append] at distinct
      exact distinct.2.2 _ held _ (by simp) rfl
    obtain ⟨middle, inserted⟩ := Program.insert_new new
    have grown : middle.functions ++ functions = program.functions ++ function :: functions := by
      rw [Program.insert_ok inserted, List.append_assoc, List.singleton_append]
    obtain ⟨final, read, all⟩ := ih middle (by rwa [grown])
    refine ⟨final, ?_, by rw [all, grown]⟩
    have whole : (function.commands.foldl OpenBlock.add
        ⟨opening.number, ⟨function.name, []⟩⟩).function = function := by
      simp [foldl_add]
    have closed : Reading.line ⟨program, some (function.commands.foldl OpenBlock.add
        ⟨opening.number, ⟨function.name, []⟩⟩)⟩ closing = .ok ⟨middle, none⟩ :=
      line_ok_iff.mpr (.finish closes plain (by rw [whole]; exact inserted))
    rw [List.foldlM_cons, line_ok_iff.mpr (.start opens named)]
    change List.foldlM Reading.line _ _ = _
    rw [List.foldlM_append, fold_body holds]
    change List.foldlM Reading.line _ _ = _
    rw [List.foldlM_cons, closed]
    exact read

/-- A program is read from lines exactly if they are its blocks. -/
theorem parseLines_ok_iff {program : Program} :
    parseLines lines = .ok program ↔ Blocks lines program.functions := by
  constructor
  · intro read
    unfold parseLines at read
    cases scanned : lines.foldlM Reading.line .start with
    | error error => simp [scanned, Except.bind] at read
    | ok final =>
      have reads := reads_lines (.between .nil) scanned
      rw [scanned] at read
      cases reads with
      | between blocks =>
        cases read
        exact blocks
      | inside => cases read
  · intro blocks
    obtain ⟨final, scanned, all⟩ := fold_blocks blocks .empty program.distinct
    have same : final = program := Program.ext all
    rw [parseLines, show Reading.start = ⟨.empty, none⟩ from rfl, scanned, same]
    rfl

/-- The program that is read is known by its functions. -/
theorem parse_of_functions {source : String} {program : Program}
    (read : (parse source).map (·.functions) = .ok program.functions) :
    parse source = .ok program := by
  cases given : parse source with
  | error error =>
    rw [given] at read
    cases read
  | ok other =>
    rw [given] at read
    rw [Program.ext (Except.ok.inj read)]

/-- Reading accepts exactly its grammar: the lines with words have to be blocks, one after
another, with distinct names. Then the functions are those of the blocks in order, and
looking up the name of a block gives its function. -/
theorem parse_accepts_blocks (source : String) :
    ((∃ program, parse source = .ok program) ↔
      ∃ functions, Blocks (tokenize source) functions ∧ (functions.map (·.name)).Nodup) ∧
    ∀ program functions, parse source = .ok program → Blocks (tokenize source) functions →
      program.functions = functions ∧
      ∀ name function, program.get? name = some function ↔
        function ∈ functions ∧ function.name = name := by
  refine ⟨⟨?_, ?_⟩, ?_⟩
  · rintro ⟨program, read⟩
    exact ⟨program.functions, parseLines_ok_iff.mp read, program.distinct⟩
  · rintro ⟨functions, blocks, distinct⟩
    exact ⟨.ofFunctions functions distinct, parseLines_ok_iff.mpr blocks⟩
  · intro program functions read blocks
    obtain rfl := blocks_unique (parseLines_ok_iff.mp read) blocks
    exact ⟨rfl, fun name function => Program.get?_eq_some_iff⟩

private def grammarDemo : String :=
  "start f ; entry\n  push g\n\n  push_func\nfinish\nstart g\nfinish"

private def grammarDemoProgram : Program :=
  .ofFunctions [⟨"f", [.push "g", .pushFunc]⟩, ⟨"g", []⟩] (by decide)

/-- Two blocks, the second of which is empty. -/
theorem parse_accepts_blocks_demo :
    parse grammarDemo = .ok grammarDemoProgram ∧
      Blocks (tokenize grammarDemo) [⟨"f", [.push "g", .pushFunc]⟩, ⟨"g", []⟩] ∧
      grammarDemoProgram.get? "g" = some ⟨"g", []⟩ := by
  have lines : tokenize grammarDemo =
      ⟨1, "start", ["f"]⟩ :: ([⟨2, "push", ["g"]⟩, ⟨4, "push_func", []⟩] ++ ⟨5, "finish", []⟩ ::
        (⟨6, "start", ["g"]⟩ :: ([] ++ ⟨7, "finish", []⟩ :: []))) := by
    decide
  have first : Body [⟨2, "push", ["g"]⟩, ⟨4, "push_func", []⟩] [.push "g", .pushFunc] :=
    .cons (by decide) (by decide) rfl (.cons (by decide) (by decide) rfl .nil)
  have blocks : Blocks (tokenize grammarDemo) [⟨"f", [.push "g", .pushFunc]⟩, ⟨"g", []⟩] := by
    rw [lines]
    exact .cons rfl rfl first rfl rfl (.cons rfl rfl .nil rfl rfl .nil)
  have read : parse grammarDemo = .ok grammarDemoProgram := parseLines_ok_iff.mpr blocks
  obtain ⟨-, found⟩ := (parse_accepts_blocks grammarDemo).2 _ _ read blocks
  exact ⟨read, blocks, (found "g" ⟨"g", []⟩).mpr ⟨by simp, rfl⟩⟩

end Source

end Dataflow
