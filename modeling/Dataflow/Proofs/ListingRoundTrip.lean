import Dataflow.CommandLine.Run
import Dataflow.CommandLine.World
import Dataflow.Proofs.BlockGrammar
import Dataflow.Proofs.DecimalText
import Dataflow.Proofs.SourceWords

/-! The listing of a program reads back as the program. What has been read is spelled with
words, and a listing puts these words on rows of their own; integers are printed over their
whole range, and names and pushed words stand as they were read, whatever they look like.
A comment after the listing, such as the fingerprint, changes nothing. -/
namespace Dataflow

open Source

/-! ### Commands -/

namespace Command

variable {command result : Command} {params : List String}

private theorem bare_ok (decoded : bare command params = .ok result) : result = command := by
  unfold bare at decoded
  split at decoded
  · cases decoded
    rfl
  · cases decoded

private theorem ofParameter_ok {decode : String → Except Error Command}
    (decoded : ofParameter decode params = .ok result) :
    ∃ parameter, params = [parameter] ∧ decode parameter = .ok result := by
  unfold ofParameter at decoded
  split at decoded
  · exact ⟨_, rfl, decoded⟩
  · cases decoded

private theorem map_ok {first : Except Error α} {make : α → Command}
    (mapped : first.map make = .ok result) : ∃ value, result = make value := by
  cases first with
  | error error => cases mapped
  | ok value =>
    cases mapped
    exact ⟨value, rfl⟩

/-- The parameter, if there is one, can stand as a word. -/
def Spelled (command : Command) : Prop :=
  ∀ parameter, command.parameter? = some parameter → IsWord parameter

private theorem clear_of_isDigit {c : Char} (digit : c.isDigit = true) :
    Text.isBlank c = false ∧ c ≠ ';' := by
  have range : '0'.val ≤ c.val ∧ c.val ≤ '9'.val := by simpa [Char.isDigit] using digit
  have low : 48 ≤ c.toNat := UInt32.le_iff_toNat_le.mp range.1
  have high : c.toNat ≤ 57 := UInt32.le_iff_toNat_le.mp range.2
  constructor
  · simp only [Text.isBlank, Bool.or_eq_false_iff, Bool.and_eq_false_iff, decide_eq_false_iff_not,
      beq_eq_false_iff_ne]
    omega
  · rintro rfl
    exact absurd high (by decide)

private theorem isWord_digits (n : Nat) : IsWord (Decimal.natText n) := by
  rw [IsWord, Decimal.natText, String.toList_ofList]
  refine ⟨Nat.toDigits_ne_nil, fun c member => ?_⟩
  exact clear_of_isDigit (Decimal.isDigit_of_mem_digits member)

private theorem isWord_signedDigits (n : Int64) : IsWord (Decimal.valueText n) := by
  rw [IsWord, Decimal.valueText, String.toList_ofList]
  constructor
  · unfold Decimal.signedDigits
    split
    · exact List.cons_ne_nil _ _
    · exact Nat.toDigits_ne_nil
  · intro c member
    rcases Decimal.mem_signedDigits member with digit | rfl
    · exact clear_of_isDigit digit
    · decide

/-- A command decoded from words has a word as its parameter. Numbers may be written in
another way than they were read. -/
theorem parse_spelled {name : String} (decoded : parse name params = .ok command)
    (words : ∀ word ∈ params, IsWord word) : command.Spelled := by
  intro parameter shown
  unfold parse at decoded
  split at decoded
  case h_4 =>
    obtain ⟨given, rfl, read⟩ := ofParameter_ok decoded
    obtain ⟨value, rfl⟩ := map_ok read
    cases shown
    exact isWord_signedDigits value
  case h_8 =>
    obtain ⟨given, rfl, read⟩ := ofParameter_ok decoded
    cases read
    cases shown
    exact words _ List.mem_cons_self
  case h_10 =>
    obtain ⟨given, rfl, read⟩ := ofParameter_ok decoded
    obtain ⟨index, rfl⟩ := map_ok read
    cases shown
    exact isWord_digits index.toNat
  case h_11 =>
    obtain ⟨given, rfl, read⟩ := ofParameter_ok decoded
    obtain ⟨index, rfl⟩ := map_ok read
    cases shown
    exact isWord_digits index.toNat
  case h_12 => cases decoded
  all_goals
    cases bare_ok decoded
    cases shown

/-- The names of all commands. -/
def names : List String :=
  ["dupl", "desccall", "create", "assign", "assign_top", "return", "input", "push", "push_func",
    "push_param", "push_return"]

/-- Names of commands are words, and none of them opens or closes a block. -/
theorem name_plain (command : Command) :
    IsWord command.name ∧ command.name ≠ "start" ∧ command.name ≠ "finish" := by
  have plain : ∀ name ∈ names, IsWord name ∧ name ≠ "start" ∧ name ≠ "finish" := by decide
  apply plain
  cases command <;> simp [name, names]

theorem integer_valueText (value : Value) : integer (Decimal.valueText value) = .ok value := by
  rw [integer, Decimal.valueText, String.toList_ofList, Decimal.signed?_signedDigits,
    Option.bind_some, Decimal.value?_toInt]

theorem index_wordText (n : UInt64) : index (Decimal.wordText n) = .ok n := by
  rw [index, Decimal.wordText, Decimal.natText, String.toList_ofList, Decimal.unsigned?_digits,
    Option.bind_some, Decimal.word?_toNat]

/-- A command is decoded from its own name and parameter. -/
theorem parse_own (command : Command) :
    parse command.name command.parameter?.toList = .ok command := by
  cases command with
  | assign value =>
    change (integer (Decimal.valueText value)).map Command.assign = _
    rw [integer_valueText]
    rfl
  | pushParam n =>
    change (index (Decimal.wordText n)).map Command.pushParam = _
    rw [index_wordText]
    rfl
  | pushReturn n =>
    change (index (Decimal.wordText n)).map Command.pushReturn = _
    rw [index_wordText]
    rfl
  | _ => rfl

/-- The row of a command in a listing. -/
def row (command : Command) : List Char :=
  written [' ', ' '] command.name command.parameter?.toList

theorem text_written (command : Command) :
    command.text.toList = written [] command.name command.parameter?.toList := by
  rw [text, written]
  cases command.parameter? with
  | none => simp
  | some parameter =>
    rw [String.toList_append, String.toList_append, List.append_assoc]
    simp

theorem row_eq (command : Command) : ("  " ++ command.text).toList = command.row := by
  rw [String.toList_append, text_written]
  rfl

theorem words_own (spelled : command.Spelled) :
    ∀ word ∈ command.name :: command.parameter?.toList, IsWord word := by
  intro word member
  rcases List.mem_cons.mp member with rfl | shown
  · exact command.name_plain.1
  · exact spelled word (by simpa using shown)

end Command

/-! ### Functions and programs -/

namespace Function

/-- The name and the parameters of all commands can stand as words. -/
def Spelled (function : Function) : Prop :=
  IsWord function.name ∧ ∀ command ∈ function.commands, command.Spelled

/-- The rows of a function in a listing. -/
def rows (function : Function) : List (List Char) :=
  written [] "start" [function.name] ::
    (function.commands.map Command.row ++ [written [] "finish" []])

theorem listing_rows (function : Function) :
    function.listing.toList = function.rows.flatMap (· ++ ['\n']) := by
  have commands : (String.join (function.commands.map fun command =>
      "  " ++ command.text ++ "\n")).toList =
      (function.commands.map Command.row).flatMap (· ++ ['\n']) := by
    rw [String.toList_join, List.flatMap_map, List.flatMap_map]
    congr 1
    funext command
    rw [String.toList_append, Command.row_eq]
    rfl
  simp only [listing, rows, String.toList_append, commands, List.flatMap_cons, List.flatMap_append,
    List.flatMap_nil, written, List.append_assoc, List.append_nil, List.nil_append]
  rfl

end Function

namespace Source

theorem body_spelled {lines : List Line} {commands : List Command} (body : Body lines commands)
    (words : ∀ line ∈ lines, line.Spelled) : ∀ command ∈ commands, command.Spelled := by
  induction body with
  | nil =>
    intro command member
    cases member
  | cons _ _ decoded _ ih =>
    obtain ⟨here, below⟩ := List.forall_mem_cons.mp words
    refine List.forall_mem_cons.mpr ⟨?_, ih below⟩
    exact Command.parse_spelled decoded fun word member => here word (List.mem_cons_of_mem _ member)

/-- Functions that have been read are spelled with words. -/
theorem blocks_spelled {lines : List Line} {functions : List Function}
    (blocks : Blocks lines functions) (words : ∀ line ∈ lines, line.Spelled) :
    ∀ function ∈ functions, function.Spelled := by
  induction blocks with
  | nil =>
    intro function member
    cases member
  | cons _ named holds _ _ _ ih =>
    obtain ⟨first, rest⟩ := List.forall_mem_cons.mp words
    obtain ⟨inside, after⟩ := List.forall_mem_append.mp rest
    refine List.forall_mem_cons.mpr ⟨⟨?_, body_spelled holds inside⟩, ?_⟩
    · exact first _ (by simp [named])
    · exact ih (List.forall_mem_cons.mp after).2

variable {functions : List Function}

theorem words_start {name : String} (word : IsWord name) :
    ∀ part ∈ ["start", name], IsWord part :=
  List.forall_mem_cons.mpr ⟨by decide, List.forall_mem_singleton.mpr word⟩

theorem words_finish : ∀ part ∈ ["finish"], IsWord part :=
  List.forall_mem_singleton.mpr (by decide)

/-- No row of a listing has a line feed in it. -/
theorem rows_single (spelled : ∀ function ∈ functions, function.Spelled) :
    ∀ row ∈ functions.flatMap Function.rows, '\n' ∉ row := by
  have clear : ∀ margin name params, '\n' ∉ margin → (∀ word ∈ name :: params, IsWord word) →
      '\n' ∉ written margin name params := by
    intro margin name params outside words member
    rcases mem_written words member with before | space | letter
    · exact outside before
    · exact absurd space (by decide)
    · exact absurd letter.1 (by decide)
  intro row member
  obtain ⟨function, held, inside⟩ := List.mem_flatMap.mp member
  obtain ⟨name, commands⟩ := spelled function held
  rcases List.mem_cons.mp inside with rfl | later
  · exact clear _ _ _ List.not_mem_nil (words_start name)
  · rcases List.mem_append.mp later with body | last
    · obtain ⟨command, among, rfl⟩ := List.mem_map.mp body
      exact clear _ _ _ (by decide) (Command.words_own (commands command among))
    · cases List.mem_singleton.mp last
      exact clear _ _ _ List.not_mem_nil words_finish

private theorem body_rows {commands : List Command} (number : Nat)
    (spelled : ∀ command ∈ commands, command.Spelled) :
    Body (linesFrom number (commands.map Command.row)) commands := by
  induction commands generalizing number with
  | nil => exact .nil
  | cons command rest ih =>
    obtain ⟨here, below⟩ := List.forall_mem_cons.mp spelled
    have blank : ∀ c ∈ [' ', ' '], Text.isBlank c = true :=
      List.forall_mem_cons.mpr ⟨rfl, List.forall_mem_singleton.mpr rfl⟩
    have read : line? number command.row = _ :=
      line?_written number blank (Command.words_own here)
    rw [List.map_cons, linesFrom, read]
    obtain ⟨-, notStart, notFinish⟩ := command.name_plain
    exact .cons notStart notFinish command.parse_own (ih (number + 1) below)

/-- The rows of functions are read as their blocks, wherever they stand in the source. -/
theorem blocks_rows (number : Nat) (spelled : ∀ function ∈ functions, function.Spelled) :
    Blocks (linesFrom number (functions.flatMap Function.rows)) functions := by
  induction functions generalizing number with
  | nil => exact .nil
  | cons function rest ih =>
    obtain ⟨⟨name, commands⟩, below⟩ := List.forall_mem_cons.mp spelled
    rw [List.flatMap_cons, linesFrom_append]
    refine Blocks.append (show Blocks _ [function] from ?_) (ih _ below)
    rw [Function.rows, linesFrom, linesFrom_append, linesFrom, linesFrom,
      line?_written _ (List.forall_mem_nil _) (words_start name),
      line?_written _ (List.forall_mem_nil _) words_finish]
    exact .cons rfl rfl (body_rows _ commands) rfl rfl .nil

/-- A listing is read as its program, and so is a listing with text after it that holds no
words outside comments. -/
theorem parse_listing_append (program : Program)
    (spelled : ∀ function ∈ program.functions, function.Spelled) (rest : String)
    (silent : ∀ number, linesFrom number (Text.lines rest.toList) = []) :
    parse (program.listing ++ rest) = .ok program := by
  have rows : program.listing.toList =
      (program.functions.flatMap Function.rows).flatMap (· ++ ['\n']) := by
    rw [FunctionTable.listing, String.toList_join, List.flatMap_map, List.flatMap_assoc]
    congr 1
    funext function
    exact function.listing_rows
  rw [parse, tokenize, String.toList_append, rows, Text.lines_rows (rows_single spelled),
    linesFrom_append, silent, List.append_nil]
  exact parseLines_ok_iff.mpr (blocks_rows 1 spelled)

theorem parsed_spelled {source : String} {program : Program} (read : parse source = .ok program) :
    ∀ function ∈ program.functions, function.Spelled :=
  blocks_spelled (parseLines_ok_iff.mp read) fun _ member => tokenize_spelled member

/-- A comment says nothing, wherever it stands. -/
theorem comment_silent {text : List Char} (single : '\n' ∉ text) (number : Nat) :
    linesFrom number (Text.lines (';' :: text ++ ['\n'])) = [] := by
  have row : ∀ row ∈ [';' :: text], '\n' ∉ row := by
    rintro row member held
    cases List.mem_singleton.mp member
    rcases List.mem_cons.mp held with mark | later
    · exact absurd mark (by decide)
    · exact single later
  have cut := Text.lines_rows row []
  rw [List.flatMap_singleton, List.append_nil] at cut
  rw [cut]
  rfl

end Source

/-! ### The fingerprint -/

theorem Digest.hexDigits_no_newline (count n : Nat) : '\n' ∉ hexDigits count n := by
  induction count generalizing n with
  | zero => exact List.not_mem_nil
  | succ count ih =>
    intro member
    rcases List.mem_append.mp member with front | last
    · exact ih (n / 16) front
    · have digit : ∀ d < 16, '\n' ≠ Nat.digitChar d := by decide
      exact digit (n % 16) (Nat.mod_lt n (by decide)) (List.mem_singleton.mp last)

theorem Program.fingerprint_no_newline (program : Program) : '\n' ∉ program.fingerprint.toList := by
  rw [FunctionTable.fingerprint, Digest.State.hex, String.toList_ofList]
  intro member
  obtain ⟨word, -, held⟩ := List.mem_flatMap.mp member
  exact Digest.hexDigits_no_newline 8 word.toNat held

namespace CommandLine

/-- Listing a file prints the listing of its program and the fingerprint as a comment. -/
theorem listFile_prints {files : FileTree} {path source : String} {program : Program}
    (found : files.read path = .ok source) (read : Source.parse source = .ok program) :
    World.perform (listFile path) (.ofFiles files) =
      (.status 0, ⟨files, program.listing ++ ("; fingerprint " ++ program.fingerprint ++ "\n"),
        ""⟩) := by
  have starts : World.perform (listFile path) (.ofFiles files) =
      World.perform (do
        Session.put .out program.listing
        Session.putLine .out ("; fingerprint " ++ program.fingerprint)
        return .status 0) (.ofFiles files) := by
    simp only [listFile, withProgram, World.perform, World.ofFiles, found, read]
  rw [starts]
  simp [World.perform, World.print, World.ofFiles, Session.put, Session.putLine, bind,
    Session.bind, pure]

theorem session_lists {words rest : List String} {options : Options} {path : String}
    (asked : Options.parse words = .ok (options, "commands" :: path :: rest)) (fuel : Nat)
    (setting : Option String) : session fuel setting words = listFile path := by
  have action : Action.ofWords ("commands" :: path :: rest) = .list path := rfl
  simp only [session, asked, action, perform]

/-- The canonical listing reads back. If a source is read as a program, then so is the
listing of that program, with or without its fingerprint as a comment; and that is what is
printed when a file that holds the source is to be listed. -/
theorem listing_reparses (source : String) (program : Program)
    (read : Source.parse source = .ok program) :
    let printed := program.listing ++ ("; fingerprint " ++ program.fingerprint ++ "\n")
    Source.parse program.listing = .ok program ∧ Source.parse printed = .ok program ∧
    ∀ fuel setting words options path rest files,
      Options.parse words = .ok (options, "commands" :: path :: rest) →
      FileTree.read files path = .ok source →
      World.perform (session fuel setting words) (.ofFiles files) =
        (.status 0, ⟨files, printed, ""⟩) := by
  intro printed
  have spelled := Source.parsed_spelled read
  refine ⟨?_, ?_, ?_⟩
  · have whole := Source.parse_listing_append program spelled "" fun _ => rfl
    rwa [String.append_empty] at whole
  · apply Source.parse_listing_append program spelled
    intro number
    have single : '\n' ∉ " fingerprint ".toList ++ program.fingerprint.toList := by
      intro member
      rcases List.mem_append.mp member with label | digest
      · exact absurd label (by decide)
      · exact program.fingerprint_no_newline digest
    rw [String.toList_append, String.toList_append]
    exact Source.comment_silent single number
  · intro fuel setting words options path rest files asked found
    rw [session_lists asked]
    exact listFile_prints found read

/-- A function that is called like a keyword, and integers at both ends of their range. -/
private def listingDemo : String :=
  "start start ; a name\n  push finish\n  assign -9223372036854775808\n" ++
    "  push_param +18446744073709551615\nfinish"

private def listingDemoProgram : Program :=
  .ofFunctions
    [⟨"start", [.push "finish", .assign (-9223372036854775808), .pushParam 18446744073709551615]⟩]
    (by decide)

theorem listing_reparses_keywords :
    let files : FileTree := ⟨[(["p.cf"], .file (some listingDemo))]⟩
    let printed := listingDemoProgram.listing ++
      ("; fingerprint " ++ listingDemoProgram.fingerprint ++ "\n")
    Source.parse listingDemo = .ok listingDemoProgram ∧
      Source.parse listingDemoProgram.listing = .ok listingDemoProgram ∧
      Source.parse printed = .ok listingDemoProgram ∧
      World.perform (session 0 none ["commands", "p.cf"]) (.ofFiles files) =
        (.status 0, ⟨files, printed, ""⟩) := by
  intro files printed
  have read : Source.parse listingDemo = .ok listingDemoProgram :=
    Source.parse_of_functions (by rfl)
  obtain ⟨listing, commented, session⟩ := listing_reparses listingDemo listingDemoProgram read
  refine ⟨read, listing, commented, ?_⟩
  exact session 0 none ["commands", "p.cf"] _ "p.cf" [] files rfl (by rfl)

end CommandLine

end Dataflow
