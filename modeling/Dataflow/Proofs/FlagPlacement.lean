import Dataflow.CommandLine.Run
import Dataflow.CommandLine.World
import Dataflow.Proofs.DecimalText

/-! Flags may stand anywhere among the words of the command line. The words are described as
the spelling of a sequence of arguments: words that stand for themselves, switches, and flags
with their values. Reading goes over the words once for each flag that takes a value. Such a
pass takes the pairs of its own flag out and leaves the spelling of all other arguments as it
is, so every later pass finds its pairs in one piece. -/
namespace Dataflow.CommandLine

/-! ### Arguments -/

inductive Switch where
  | verbose
  | trace
  | strictReads
  | leakDetector
deriving DecidableEq

@[reducible] def Switch.flag : Switch → String
  | .verbose => "--verbose"
  | .trace => "--trace"
  | .strictReads => "--strict-reads"
  | .leakDetector => "--leak-detector"

/-- What a flag with a value sets. -/
inductive Setting where
  | entry
  | maxSteps
  | checkpoint
  | resume
deriving DecidableEq

@[reducible] def Setting.flag : Setting → String
  | .entry => "--entry"
  | .maxSteps => "--max-steps"
  | .checkpoint => "--checkpoint"
  | .resume => "--resume"

def flags : List String :=
  switches ++ [Setting.entry, .maxSteps, .checkpoint, .resume].map Setting.flag

/-- A part of the command line. Neither a word that stands for itself nor a value is spelled
like a flag. -/
inductive Argument where
  | word (text : String) (plain : text ∉ flags)
  | switch (switch : Switch)
  | setting (setting : Setting) (value : String) (plain : value ∉ flags)
deriving DecidableEq

namespace Argument

/-- The words that spell an argument. -/
def words : Argument → List String
  | .word text _ => [text]
  | .switch one => [one.flag]
  | .setting one value _ => [one.flag, value]

def isSwitch : Argument → Bool
  | .switch _ => true
  | _ => false

def word? : Argument → Option String
  | .word text _ => some text
  | _ => none

/-- The value that an argument gives to a setting. -/
def value? (setting : Setting) : Argument → Option String
  | .setting other value _ => if other = setting then some value else none
  | _ => none

end Argument

def spelled (arguments : List Argument) : List String :=
  arguments.flatMap Argument.words

/-- The words that stand for themselves, in order. -/
def positionals (arguments : List Argument) : List String :=
  arguments.filterMap Argument.word?

/-- The last value that is given to a setting. -/
def lastValue (setting : Setting) (arguments : List Argument) : Option String :=
  (arguments.filterMap (Argument.value? setting)).getLast?

def switchless (arguments : List Argument) : List Argument :=
  arguments.filter (!·.isSwitch)

/-- The arguments that give no value to a setting. -/
def without (setting : Setting) (arguments : List Argument) : List Argument :=
  arguments.filter fun argument => (argument.value? setting).isNone

section

variable {arguments : List Argument} {setting other : Setting} {switch : Switch} {word : String}

theorem Switch.flag_mem (switch : Switch) : switch.flag ∈ switches := by
  cases switch <;> decide

theorem Switch.flag_inj {one : Switch} (same : one.flag = switch.flag) : one = switch := by
  revert same
  cases one <;> cases switch <;> decide

theorem Setting.flag_mem (setting : Setting) : setting.flag ∈ flags := by
  cases setting <;> decide

theorem Setting.flag_not_switch (setting : Setting) : setting.flag ∉ switches := by
  cases setting <;> decide

theorem Setting.flag_inj (same : other.flag = setting.flag) : other = setting := by
  revert same
  cases other <;> cases setting <;> decide

theorem not_switch_of_plain (plain : word ∉ flags) : word ∉ switches :=
  fun switch => plain (List.mem_append_left _ switch)

theorem lastValue_filter {keep : Argument → Bool}
    (kept : ∀ value plain, keep (.setting setting value plain) = true) :
    lastValue setting (arguments.filter keep) = lastValue setting arguments := by
  rw [lastValue, List.filterMap_filter, lastValue]
  congr 2
  funext argument
  cases argument with
  | word text plain => exact ite_self _
  | switch switch => exact ite_self _
  | setting other value plain =>
    by_cases same : other = setting
    · subst same
      rw [if_pos (kept value plain)]
    · simp [Argument.value?, same]

theorem lastValue_switchless :
    lastValue setting (switchless arguments) = lastValue setting arguments :=
  lastValue_filter fun _ _ => rfl

theorem lastValue_without (different : setting ≠ other) :
    lastValue setting (without other arguments) = lastValue setting arguments :=
  lastValue_filter fun _ _ => by simp [Argument.value?, different]

/-! ### Passes -/

/-- A word that is not the flag stays. -/
theorem takeValue_other {flag : String} (different : word ≠ flag) (rest : List String) :
    takeValue flag (word :: rest) =
      (takeValue flag rest).map fun (found, others) => (found, word :: others) := by
  cases rest with
  | nil => simp [takeValue, different, Except.map]
  | cons value later => rw [takeValue, if_neg different]

/-- A pass takes out the pairs of its flag and leaves all else as it stands. -/
theorem takeValue_spelled (setting : Setting) (arguments : List Argument) (tail : List String) :
    takeValue setting.flag (spelled arguments ++ tail) =
      (takeValue setting.flag tail).map fun (later, others) =>
        (later.or (lastValue setting arguments),
          spelled (without setting arguments) ++ others) := by
  have apart : ∀ {word}, word ∉ flags → word ≠ setting.flag := by
    rintro word plain rfl
    exact plain setting.flag_mem
  induction arguments with
  | nil =>
    show takeValue setting.flag tail = _
    cases takeValue setting.flag tail with
    | error error => rfl
    | ok found => simp [Except.map, spelled, lastValue, without]
  | cons argument rest ih =>
    cases argument with
    | word text plain =>
      show takeValue setting.flag (text :: (spelled rest ++ tail)) = _
      rw [takeValue_other (apart plain), ih]
      cases takeValue setting.flag tail <;> rfl
    | switch switch =>
      have different : switch.flag ≠ setting.flag := fun same =>
        setting.flag_not_switch (same ▸ switch.flag_mem)
      show takeValue setting.flag (switch.flag :: (spelled rest ++ tail)) = _
      rw [takeValue_other different, ih]
      cases takeValue setting.flag tail <;> rfl
    | setting other value plain =>
      show takeValue setting.flag (other.flag :: value :: (spelled rest ++ tail)) = _
      by_cases same : other = setting
      · subst same
        have taken : without other (.setting other value plain :: rest) = without other rest := by
          simp [without, Argument.value?]
        have last : lastValue other (.setting other value plain :: rest) =
            some ((lastValue other rest).getD value) := by
          simp [lastValue, Argument.value?, List.getLast?_cons]
        rw [takeValue, if_pos rfl, ih, taken, last]
        cases takeValue other.flag tail with
        | error error => rfl
        | ok found =>
          obtain ⟨found, others⟩ := found
          cases found <;> rfl
      · have kept : without setting (.setting other value plain :: rest) =
            .setting other value plain :: without setting rest := by
          simp [without, Argument.value?, same]
        have last : lastValue setting (.setting other value plain :: rest) =
            lastValue setting rest := by
          simp [lastValue, Argument.value?, same]
        rw [takeValue_other (mt Setting.flag_inj same), takeValue_other (apart plain), ih, kept,
          last]
        cases takeValue setting.flag tail <;> rfl

theorem takeValue_whole (setting : Setting) (arguments : List Argument) :
    takeValue setting.flag (spelled arguments) =
      .ok (lastValue setting arguments, spelled (without setting arguments)) := by
  have passed := takeValue_spelled setting arguments []
  rw [List.append_nil] at passed
  rw [passed]
  simp [takeValue, Except.map]

/-- The last word is the flag, and no value is left for it. -/
theorem takeValue_dangling (setting : Setting) (arguments : List Argument) :
    takeValue setting.flag (spelled arguments ++ [setting.flag]) =
      .error (.missingValue setting.flag) := by
  rw [takeValue_spelled, takeValue, if_pos rfl]
  rfl

theorem takeValue_before (different : other ≠ setting) (arguments : List Argument) :
    takeValue setting.flag (spelled arguments ++ [other.flag]) =
      .ok (lastValue setting arguments, spelled (without setting arguments) ++ [other.flag]) := by
  rw [takeValue_spelled, takeValue, if_neg (mt Setting.flag_inj different)]
  rfl

/-- Removing the switches takes the switches out and leaves all else as it stands. -/
theorem filter_switches (arguments : List Argument) :
    (spelled arguments).filter (!switches.contains ·) = spelled (switchless arguments) := by
  induction arguments with
  | nil => rfl
  | cons argument rest ih =>
    rw [spelled, List.flatMap_cons, List.filter_append, ← spelled, ih]
    cases argument with
    | word text plain =>
      have kept : [text].filter (!switches.contains ·) = [text] := by
        simp [not_switch_of_plain plain]
      rw [Argument.words, kept]
      rfl
    | switch switch =>
      have gone : [switch.flag].filter (!switches.contains ·) = [] := by
        simp [switch.flag_mem]
      rw [Argument.words, gone]
      rfl
    | setting setting value plain =>
      have kept : [setting.flag, value].filter (!switches.contains ·) = [setting.flag, value] := by
        simp [setting.flag_not_switch, not_switch_of_plain plain]
      rw [Argument.words, kept]
      rfl

/-- The flag of a switch comes up among the words only as the switch. -/
theorem contains_switch (switch : Switch) (arguments : List Argument) :
    (spelled arguments).contains switch.flag = decide (.switch switch ∈ arguments) := by
  rw [List.contains_eq_mem]
  apply decide_eq_decide.mpr
  constructor
  · intro member
    obtain ⟨argument, held, said⟩ := List.mem_flatMap.mp member
    cases argument with
    | word text plain =>
      cases List.mem_singleton.mp said
      exact absurd switch.flag_mem (not_switch_of_plain plain)
    | switch one =>
      cases Switch.flag_inj (List.mem_singleton.mp said)
      exact held
    | setting setting value plain =>
      rcases List.mem_cons.mp said with same | last
      · exact absurd (same ▸ switch.flag_mem) setting.flag_not_switch
      · cases List.mem_singleton.mp last
        exact absurd switch.flag_mem (not_switch_of_plain plain)
  · intro held
    exact List.mem_flatMap.mpr ⟨_, held, List.mem_singleton_self _⟩

/-- After all passes, the words that stand for themselves are left. -/
theorem spelled_residue (arguments : List Argument) :
    spelled (without .resume (without .checkpoint (without .maxSteps (without .entry
      (switchless arguments))))) = positionals arguments := by
  induction arguments with
  | nil => rfl
  | cons argument rest ih =>
    cases argument with
    | word text plain => exact congrArg (text :: ·) ih
    | switch switch => exact ih
    | setting setting value plain => cases setting <;> exact ih

/-! ### Options -/

/-- The options that arguments ask for, given the number of steps that they name. -/
def optionsOf (arguments : List Argument) (maxSteps : Option UInt64) : Options where
  verbose := .switch .verbose ∈ arguments
  trace := .switch .trace ∈ arguments
  strictReads := .switch .strictReads ∈ arguments
  leakDetector := .switch .leakDetector ∈ arguments
  entry := (lastValue .entry arguments).getD "#main"
  maxSteps := maxSteps
  checkpoint := lastValue .checkpoint arguments
  resume := lastValue .resume arguments

theorem parse_spelled (arguments : List Argument) :
    Options.parse (spelled arguments) =
      (stepCount (lastValue .maxSteps arguments)).map fun maxSteps =>
        (optionsOf arguments maxSteps, positionals arguments) := by
  simp only [Options.parse, filter_switches, bind, Except.bind]
  rw [takeValue_whole .entry]
  dsimp only
  rw [takeValue_whole .maxSteps, lastValue_without (by decide), lastValue_switchless]
  dsimp only
  cases stepCount (lastValue .maxSteps arguments) with
  | error error => rfl
  | ok count =>
    dsimp only
    rw [takeValue_whole .checkpoint]
    dsimp only
    rw [takeValue_whole .resume, spelled_residue, contains_switch .verbose,
      contains_switch .trace, contains_switch .strictReads, contains_switch .leakDetector]
    simp only [lastValue_without, lastValue_switchless, ne_eq, reduceCtorEq, not_false_eq_true]
    rfl

/-- No pass misses its flag when it is the last word. -/
theorem parse_dangling (setting : Setting) (arguments : List Argument) :
    ∃ error, Options.parse (spelled arguments ++ [setting.flag]) = .error error := by
  have kept : (spelled arguments ++ [setting.flag]).filter (!switches.contains ·) =
      spelled (switchless arguments) ++ [setting.flag] := by
    rw [List.filter_append, filter_switches]
    simp [setting.flag_not_switch]
  simp only [Options.parse, kept, bind, Except.bind]
  -- Each pass either is the one of the flag, or leaves the flag at the end.
  by_cases entry : setting = .entry
  · subst entry
    rw [takeValue_dangling .entry]
    exact ⟨_, rfl⟩
  rw [takeValue_before entry]
  dsimp only
  by_cases maxSteps : setting = .maxSteps
  · subst maxSteps
    rw [takeValue_dangling .maxSteps]
    exact ⟨_, rfl⟩
  rw [takeValue_before maxSteps]
  dsimp only
  cases stepCount (lastValue .maxSteps (without .entry (switchless arguments))) with
  | error error => exact ⟨error, rfl⟩
  | ok count =>
    dsimp only
    by_cases checkpoint : setting = .checkpoint
    · subst checkpoint
      rw [takeValue_dangling .checkpoint]
      exact ⟨_, rfl⟩
    rw [takeValue_before checkpoint]
    dsimp only
    by_cases resume : setting = .resume
    · subst resume
      rw [takeValue_dangling .resume]
      exact ⟨_, rfl⟩
    · cases setting <;> contradiction

end

/-- The number of steps that is asked for. Without a value there is no limit, and a value has to
be the text of a number that fits into a word. -/
inductive AsksSteps : Option String → Option UInt64 → Prop where
  | unlimited : AsksSteps none none
  | limited {text : String} {count : UInt64}
      (numeral : Decimal.IsUnsigned text.toList count.toNat) :
      AsksSteps (some text) (some count)

theorem stepCount_ok_iff {value : Option String} {steps : Option UInt64} :
    stepCount value = .ok steps ↔ AsksSteps value steps := by
  constructor
  · intro read
    unfold stepCount at read
    split at read
    · cases read
      exact .unlimited
    · split at read
      · rename_i text count found
        cases read
        exact .limited (Decimal.bind_word?_eq_some_iff.mp found)
      · cases read
  · intro asks
    cases asks with
    | unlimited => rfl
    | limited numeral => rw [stepCount, Decimal.bind_word?_eq_some_iff.mpr numeral]

theorem stepCount_error {value : Option String} {error : UsageError}
    (failed : stepCount value = .error error) : error = .maxSteps := by
  unfold stepCount at failed
  split at failed
  · cases failed
  · split at failed
    · cases failed
    · cases failed
      rfl

theorem perform_complain (code : UInt8) (line : String) (world : World) :
    World.perform (complain code line) world = (.status code, world.print .err (line ++ "\n")) :=
  rfl

/-- Where flags stand does not matter. Whatever the order of the arguments, the switches are on
that come up, each flag has the last value that is given for it or its default, the words left
are those that stand for themselves, and the program goes on with these. It does not go on if
the last number of steps is no number or does not fit, or if a flag at the end lacks its value:
then it only prints a complaint and ends with status two. -/
theorem flags_stand_anywhere (arguments : List Argument) (fuel : Nat) (logging : Option String) :
    (∀ steps, AsksSteps (lastValue .maxSteps arguments) steps →
      Options.parse (spelled arguments) = .ok (optionsOf arguments steps, positionals arguments) ∧
      session fuel logging (spelled arguments) =
        perform fuel logging (optionsOf arguments steps) (.ofWords (positionals arguments))) ∧
    ((∀ steps, ¬ AsksSteps (lastValue .maxSteps arguments) steps) →
      ∀ world, World.perform (session fuel logging (spelled arguments)) world =
        (.status 2, world.print .err (UsageError.maxSteps.message ++ "\n"))) ∧
    ∀ (setting : Setting) (world : World), ∃ error : UsageError,
      World.perform (session fuel logging (spelled arguments ++ [setting.flag])) world =
        (.status 2, world.print .err (error.message ++ "\n")) := by
  have parsed := parse_spelled arguments
  refine ⟨fun steps asks => ?_, fun none world => ?_, fun setting world => ?_⟩
  · rw [stepCount_ok_iff.mpr asks] at parsed
    exact ⟨parsed, by rw [session, parsed]; rfl⟩
  · cases read : stepCount (lastValue .maxSteps arguments) with
    | ok steps => exact absurd (stepCount_ok_iff.mp read) (none steps)
    | error error =>
      rw [read, stepCount_error read] at parsed
      rw [session, parsed]
      exact perform_complain 2 _ world
  · obtain ⟨error, failed⟩ := parse_dangling setting arguments
    rw [session, failed]
    exact ⟨error, perform_complain 2 _ world⟩

private def flagDemo : List Argument :=
  [.setting .maxSteps "x" (by decide), .word "run" (by decide), .switch .trace,
    .setting .entry "f" (by decide), .word "p.cf" (by decide),
    .setting .maxSteps "+08" (by decide), .switch .trace]

/-- The last number of steps counts, whatever was asked for before. -/
theorem flags_stand_anywhere_repeated :
    spelled flagDemo = ["--max-steps", "x", "run", "--trace", "--entry", "f", "p.cf",
      "--max-steps", "+08", "--trace"] ∧
    AsksSteps (some "+08") (some 8) ∧
    session 9 none (spelled flagDemo) =
      perform 9 none ⟨false, true, false, false, "f", some 8, none, none⟩ (.run "p.cf") ∧
    ∃ error : UsageError, World.perform (session 9 none (spelled flagDemo ++ ["--entry"]))
      (.ofFiles .empty) = (.status 2, ⟨.empty, "", error.message ++ "\n"⟩) := by
  have asks : AsksSteps (some "+08") (some 8) :=
    .limited (Decimal.unsigned?_eq_some_iff.mp rfl)
  obtain ⟨goes, -, dangling⟩ := flags_stand_anywhere flagDemo 9 none
  exact ⟨rfl, asks, (goes (some 8) asks).2, dangling .entry (.ofFiles .empty)⟩

end Dataflow.CommandLine
