import Dataflow.Primitives.Scripted
import Dataflow.Proofs.BlockGrammar
import Dataflow.Proofs.StepFailures

/-! Where names come from. A task bears a name that the owner of the engine gave, or a word
that a `push` command of the program put on the stack: nothing else puts a word there, and
a frame starts with an empty stack. So all names that can ever be looked up are known
before the first step, and if each of them stands for something, no look-up fails. -/
namespace Dataflow

/-! ### Names that stand for something -/

namespace Primitives

private theorem strip?_eq_some_iff {lead text rest : List Char} :
    strip? lead text = some rest ↔ text = lead ++ rest := by
  induction lead generalizing text with
  | nil => simp [strip?]
  | cons c lead ih =>
    cases text with
    | nil => simp [strip?]
    | cons d text =>
      by_cases same : c = d
      · simp [strip?, same, ih]
      · simp [strip?, same, Ne.symm same]

/-- A marked name is the marker and a key. -/
theorem key?_eq_some_iff {name key : String} :
    key? name = some key ↔ name = "#_intrin_" ++ key := by
  have spelled : ("#_intrin_" ++ key).toList = marker ++ key.toList := String.toList_append
  rw [← String.toList_inj, spelled, key?, Option.map_eq_some_iff, ← strip?_eq_some_iff]
  refine ⟨?_, fun stripped => ⟨_, stripped, String.ofList_toList⟩⟩
  rintro ⟨rest, stripped, rfl⟩
  rw [stripped, String.toList_ofList]

end Primitives

namespace Program

/-- Some function of the program has a command that pushes the word. -/
def Pushes (program : Program) (word : String) : Prop :=
  ∃ function ∈ program.functions, .push word ∈ function.commands

/-- The name stands for something: it is a marked name whose key is provided, or the name of
a function, or a provided name without marker. -/
def Resolves (provided : String → Bool) (program : Program) (name : String) : Prop :=
  (∃ key, name = "#_intrin_" ++ key ∧ provided key = true) ∨
    (∃ function ∈ program.functions, function.name = name) ∨
    (∀ key, name ≠ "#_intrin_" ++ key) ∧ provided name = true

/-- Exactly the names that stand for nothing have no target. -/
theorem resolve_eq_none_iff {provided : String → Bool} {program : Program} {name : String} :
    Target.resolve provided program name = none ↔ ¬ program.Resolves provided name := by
  have function : (∃ function ∈ program.functions, function.name = name) ↔
      program.contains name = true := by
    rw [contains_iff, List.mem_map]
  unfold Resolves Target.resolve
  simp only [function, ne_eq, ← Primitives.key?_eq_some_iff]
  cases marked : Primitives.key? name with
  | some key => by_cases given : provided key <;> by_cases held : program.contains name <;> simp_all
  | none => by_cases given : provided name <;> by_cases held : program.contains name <;> simp_all

end Program

/-! ### Commands -/

/-- A frame within the body of a function, which has pushed all words on its stack. -/
structure Frame.Within (function : Function) (frame : Frame) : Prop where
  named : frame.task.name = some function.name
  position : frame.position.toNat ≤ function.size
  words : ∀ word, .literal word ∈ frame.stack → .push word ∈ function.commands

namespace Machine

variable {machine after left : Machine} {policy : ReadPolicy} {command : Command}

/-- What a command that completes does with names: a word on the stack was there before or is
pushed now, and a task is enqueued under a word from the stack. A sound call stays sound. -/
structure Carries (command : Command) (machine after : Machine) : Prop where
  task : after.frame.task = machine.frame.task
  words : ∀ word, .literal word ∈ after.frame.stack →
    .literal word ∈ machine.frame.stack ∨ command = .push word
  sound : machine.frame.call.isSound = true → after.frame.call.isSound = true
  queue : after.queue = machine.queue ∨ ∃ task name, after.queue = machine.queue.push task ∧
    task.name = some name ∧ .literal name ∈ machine.frame.stack

private theorem carries_of_words (task : after.frame.task = machine.frame.task)
    (call : after.frame.call = machine.frame.call) (queue : after.queue = machine.queue)
    (words : ∀ word, .literal word ∈ after.frame.stack → .literal word ∈ machine.frame.stack) :
    Carries command machine after where
  task := task
  words word member := .inl (words word member)
  sound sound := by rw [call]; exact sound
  queue := .inl queue

private theorem carries_push_cell (id : CellId) (store : Store) :
    Carries command machine ((machine.withStore store).push (.cell id)) := by
  refine carries_of_words rfl rfl rfl fun word member => ?_
  rcases List.mem_cons.mp member with top | below
  · cases top
  · exact below

theorem executes_carries (rule : Executes policy machine command after) :
    Carries command machine after := by
  cases rule with
  | dupl stack =>
    refine carries_of_words rfl rfl rfl fun word member => ?_
    rcases List.mem_cons.mp member with top | below
    · rw [stack, top]
      exact List.mem_cons_self
    · exact below
  | descCall => exact ⟨rfl, fun word member => .inl member, fun _ => rfl, .inl rfl⟩
  | create => exact carries_push_cell _ _
  | assign stack bound => exact carries_of_words rfl rfl rfl fun word member => member
  | assignTop stack read bound =>
    refine carries_of_words rfl rfl rfl fun word member => ?_
    rw [stack]
    exact List.mem_cons_of_mem _ member
  | output stack raised =>
    refine ⟨rfl, fun word member => .inl ?_, Call.isSound_addOutput, .inl rfl⟩
    rw [stack]
    exact List.mem_cons_of_mem _ member
  | input stack raised =>
    refine ⟨rfl, fun word member => .inl ?_, Call.isSound_addInput, .inl rfl⟩
    rw [stack]
    exact List.mem_cons_of_mem _ member
  | push word =>
    refine ⟨rfl, fun other member => ?_, fun sound => sound, .inl rfl⟩
    rcases List.mem_cons.mp member with top | below
    · cases top
      exact .inr rfl
    · exact .inl below
  | @pushFunc name rest store stack sound raised =>
    refine ⟨rfl, fun word member => .inl ?_, fun _ => Call.isSound_issued _ _,
      .inr ⟨_, name, rfl, rfl, ?_⟩⟩
    · rw [stack]
      exact List.mem_cons_of_mem _ member
    · rw [stack]
      exact List.mem_cons_self
  | pushParam found => exact carries_push_cell _ machine.store
  | pushReturn found => exact carries_push_cell _ machine.store

/-- A command that stops enqueues nothing and leaves the frame as it was, but for an operand
that is gone from the stack. -/
theorem stops_frame {stop : Stop} (stops : machine.Stops command stop left) :
    left.queue = machine.queue ∧ ∃ stack, stack <:+ machine.frame.stack ∧
      left.frame = { machine.frame with stack := stack } := by
  cases stops with
  | fault spares =>
    rcases spares with rfl | ⟨top, rest, stack, rfl⟩
    · exact ⟨rfl, _, List.suffix_rfl, rfl⟩
    · exact ⟨rfl, rest, stack ▸ List.suffix_cons top rest, rfl⟩
  | @dangling name rest fault store stack raised =>
    exact ⟨rfl, rest, stack ▸ List.suffix_cons _ rest, rfl⟩
  | @unsound name rest stack unsound =>
    exact ⟨rfl, rest, stack ▸ List.suffix_cons _ rest, rfl⟩

end Machine

/-! ### Steps -/

namespace Engine

/-- Every pending task bears a name that was given from outside or is pushed by the program,
and the frame is within a function of the program. -/
structure Traced (Given : String → Prop) (engine : Engine σ) : Prop where
  queue : ∀ task ∈ engine.queue.tasks, ∃ name, task.name = some name ∧
    (Given name ∨ engine.program.Pushes name)
  frame : ∀ frame, engine.frame = some frame → ∃ function ∈ engine.program.functions,
    frame.Within function

variable {Given : String → Prop} {primitives : Primitives σ} {engine after : Engine σ}
  {frame : Frame} {task : Task} {function : Function} {step : Step} {failure : Failure}

/-- A frame within a function of the program finds its body. -/
theorem within_get? (member : function ∈ engine.program.functions)
    (within : frame.Within function) : engine.program.get? frame.label = some function := by
  apply Program.get?_eq_some_iff.mpr
  exact ⟨member, by rw [Frame.label, Task.label, within.named]; rfl⟩

private theorem next_position {position : UInt64} {command : Command}
    (here : function.commands[position.toNat]? = some command) :
    (position + 1).toNat ≤ function.size := by
  have inside : position.toNat < function.size := (List.getElem?_eq_some_iff.mp here).1
  have next : (position + 1).toNat ≤ position.toNat + 1 := by
    rw [UInt64.toNat_add]
    exact Nat.mod_le _ _
  omega

/-- A running function that goes on stays within its body. What it enqueues bears a word of
that body. -/
theorem advances_traced (traced : engine.Traced Given) (running : engine.frame = some frame)
    (advances : Advances engine frame step after) : after.Traced Given := by
  obtain ⟨function, member, within⟩ := traced.frame frame running
  cases advances with
  | finish found ended => exact ⟨traced.queue, fun frame none => by cases none⟩
  | @command called command machine found here rule =>
    cases (within_get? member within).symm.trans found
    have carries := Machine.executes_carries rule
    have named : machine.frame.task.name = some function.name := by
      rw [carries.task]
      exact within.named
    constructor
    · intro task queued
      rcases carries.queue with same | ⟨issued, name, pushed, label, top⟩
      · have queued : task ∈ machine.queue.tasks := queued
        rw [same] at queued
        exact traced.queue task queued
      · have queued : task ∈ machine.queue.tasks := queued
        rw [pushed] at queued
        rcases List.mem_append.mp queued with before | new
        · exact traced.queue task before
        · cases List.mem_singleton.mp new
          exact ⟨name, label, .inr ⟨function, member, within.words name top⟩⟩
    · rintro next ⟨⟩
      refine ⟨function, member, named, next_position here, fun word held => ?_⟩
      rcases carries.words word held with before | rfl
      · exact within.words word before
      · exact List.mem_of_getElem? here

/-- A running function that cannot go on stays where it is. -/
theorem breaks_traced (traced : engine.Traced Given) (running : engine.frame = some frame)
    (breaks : Breaks engine frame failure after) : after.Traced Given := by
  cases breaks with
  | unknown absent => exact traced
  | @stop called command stop left found here stopped =>
    obtain ⟨function, member, within⟩ := traced.frame frame running
    obtain ⟨queue, stack, shorter, left⟩ := Machine.stops_frame (Machine.execute_stops stopped)
    constructor
    · intro task queued
      have queued : task ∈ _ := queued
      rw [withMachine, queue] at queued
      exact traced.queue task queued
    · rintro next ⟨⟩
      refine ⟨function, member, ?_⟩
      rw [left]
      exact ⟨within.named, within.position,
        fun word held => within.words word (shorter.subset held)⟩

/-- A task that starts as a function is within that function. -/
theorem start_traced (traced : engine.Traced Given) {name : String}
    (label : task.name = some name)
    (target : Target.resolve (primitives.provides engine.host) engine.program task.label =
      some .function) :
    Traced Given { engine with frame := some (.start task) } := by
  have named : task.label = name := by rw [Task.label, label]; rfl
  have held : engine.program.contains name = true := by
    unfold Target.resolve at target
    rw [named] at target
    grind
  obtain ⟨function, member, same⟩ := List.mem_map.mp (Program.contains_iff.mp held)
  refine ⟨traced.queue, ?_⟩
  rintro frame ⟨⟩
  exact ⟨function, member, label.trans (congrArg some same.symm), Nat.zero_le _,
    fun word held => by cases held⟩

/-- A task that leaves the queue bears a name, and the others still do. -/
theorem taken_traced {skipped later : List Task} (traced : engine.Traced Given)
    (chosen : engine.queue.select engine.store = .ready skipped task later) :
    Traced Given { engine with queue := ⟨skipped ++ later⟩ } ∧
      ∃ name, task.name = some name ∧ (Given name ∨ engine.program.Pushes name) := by
  have shape := (Selection.ready_eq chosen).1
  constructor
  · refine ⟨fun other member => traced.queue other ?_, traced.frame⟩
    rw [shape]
    exact List.mem_append.mpr ((List.mem_append.mp member).imp_right (List.mem_cons_of_mem _))
  · apply traced.queue
    rw [shape]
    simp

private theorem balks_traced {key : String} {error : Error} (traced : engine.Traced Given)
    (balks : Balks primitives engine key task error after) : after.Traced Given := by
  cases balks <;> exact ⟨traced.queue, traced.frame⟩

/-- No step loses track of a name, whether it completes or fails. -/
theorem step_traced (primitives : Primitives σ) (traced : engine.Traced Given) :
    (engine.step primitives).2.Traced Given := by
  cases stepped : engine.step primitives with
  | mk answer after =>
    cases answer with
    | ok step =>
      cases step_ok_iff.mp stepped with
      | advance running advances => exact advances_traced traced running advances
      | halt idle nothing => exact traced
      | dispatch idle chosen dispatches =>
        obtain ⟨waiting, name, label, -⟩ := taken_traced traced chosen
        cases dispatches with
        | primitive target read replied enough bound => exact ⟨waiting.queue, waiting.frame⟩
        | function target advances =>
          exact advances_traced (start_traced waiting label target) rfl advances
    | error failure =>
      cases step_error_iff.mp stepped with
      | advance running breaks => exact breaks_traced traced running breaks
      | undecided idle chosen => exact traced
      | dispatch idle chosen refuses =>
        obtain ⟨waiting, name, label, -⟩ := taken_traced traced chosen
        cases refuses with
        | unknown target => exact waiting
        | primitive target balks => exact balks_traced waiting balks
        | function target breaks =>
          exact breaks_traced (start_traced waiting label target) rfl breaks

/-- Nor does any request, so names can be traced through every history. -/
theorem after_traced (primitives : Primitives σ) (requests : List Request)
    (given : ∀ name, .seed name ∈ requests → Given name) (traced : engine.Traced Given) :
    (engine.after primitives requests).Traced Given := by
  induction requests generalizing engine with
  | nil => exact traced
  | cons request rest ih =>
    apply ih fun name member => given name (List.mem_cons_of_mem _ member)
    cases request with
    | setPolicy policy => exact ⟨traced.queue, traced.frame⟩
    | step => exact step_traced primitives traced
    | seed name =>
      refine ⟨fun task member => ?_, traced.frame⟩
      rcases List.mem_append.mp member with before | new
      · exact traced.queue task before
      · cases List.mem_singleton.mp new
        exact ⟨name, rfl, .inl (given name List.mem_cons_self)⟩

theorem history_traced (primitives : Primitives σ) (program : Program) (host : σ)
    (requests : List Request) :
    ((ofProgram program host).after primitives requests).Traced fun name =>
      .seed name ∈ requests :=
  after_traced primitives requests (fun _ member => member)
    ⟨fun task member => (by cases member), fun frame running => (by cases running)⟩

private theorem breaks_known {name : String} (traced : engine.Traced Given)
    (running : engine.frame = some frame)
    (breaks : Breaks engine frame (.error (.unknownFunction name)) after) : False := by
  obtain ⟨function, member, within⟩ := traced.frame frame running
  generalize reported : Failure.error (.unknownFunction name) = failure at breaks
  cases breaks with
  | unknown absent => cases absent.symm.trans (within_get? member within)
  | @stop called command stop left found here stopped => cases stop <;> cases reported

/-- If every name that was given or is pushed stands for something, a step does not fail for
want of a function. -/
theorem step_known {name : String} (traced : engine.Traced Given)
    (known : ∀ name, Given name ∨ engine.program.Pushes name →
      engine.program.Resolves (primitives.provides engine.host) name) :
    (engine.step primitives).1 ≠ .error (.error (.unknownFunction name)) := by
  intro answer
  obtain ⟨after, stepped⟩ : ∃ after, engine.step primitives =
    (.error (.error (.unknownFunction name)), after) := ⟨_, Prod.ext answer rfl⟩
  cases step_error_iff.mp stepped with
  | advance running breaks => exact breaks_known traced running breaks
  | @dispatch skipped later task _ _ idle chosen refuses =>
    obtain ⟨waiting, given, label, source⟩ := taken_traced traced chosen
    have named : task.label = given := by rw [Task.label, label]; rfl
    generalize reported : Failure.error (.unknownFunction name) = failure at refuses
    cases refuses with
    | unknown target =>
      rw [named] at target
      exact Program.resolve_eq_none_iff.mp target (known given source)
    | primitive target balks => cases balks <;> cases reported
    | function target breaks =>
      subst reported
      exact breaks_known (start_traced waiting label target) rfl breaks

/-- Names can be checked before the first step. Every pending task bears a name that was
seeded or that some `push` command of the program puts on the stack. The running frame
bears the name of a function of the program and is within its body. So if all of these
names stand for something, no step ever fails for want of a function. -/
theorem names_resolve_statically (program : Program) (primitives : Primitives σ)
    (provided : String → Bool) (fixed : ∀ state, primitives.provides state = provided) (host : σ)
    (requests : List Request) :
    let engine := (ofProgram program host).after primitives requests
    (∀ task ∈ engine.queue.tasks, ∃ name, task.name = some name ∧
      (.seed name ∈ requests ∨ program.Pushes name)) ∧
    (∀ frame, engine.frame = some frame → ∃ function ∈ program.functions,
      frame.task.name = some function.name ∧ frame.position.toNat ≤ function.size) ∧
    ((∀ name, .seed name ∈ requests ∨ program.Pushes name → program.Resolves provided name) →
      ∀ name, (engine.step primitives).1 ≠ .error (.error (.unknownFunction name))) := by
  intro engine
  have traced := history_traced primitives program host requests
  have same : engine.program = program := after_program primitives _ requests
  have queue := traced.queue
  rw [same] at queue
  refine ⟨queue, fun frame running => ?_, fun known name => ?_⟩
  · obtain ⟨function, member, within⟩ := traced.frame frame running
    exact ⟨function, same ▸ member, within.named, within.position⟩
  · apply step_known traced
    rw [same, fixed]
    exact known

/-- The first function calls a primitive by its marked name, twice with one push, and then
another function. -/
private def provenanceDemo : Program :=
  .ofFunctions
    [⟨"f", [.push "#_intrin_put", .dupl, .pushFunc, .pushFunc, .push "g", .pushFunc]⟩, ⟨"g", []⟩]
    (by decide)

/-- Within the body, after the first call. -/
theorem names_resolve_statically_mid_body :
    let primitives := Primitives.scripted [("put", .results [])]
    let requests := [Request.seed "f", .step, .step, .step]
    let engine := (ofProgram provenanceDemo ()).after primitives requests
    engine.queue.tasks = [.named "#_intrin_put"] ∧
    engine.frame.map (·.position) = some 3 ∧
    (∀ name, .seed name ∈ requests ∨ provenanceDemo.Pushes name →
      provenanceDemo.Resolves (primitives.provides ()) name) ∧
    ∀ name, (engine.step primitives).1 ≠ .error (.error (.unknownFunction name)) := by
  intro primitives requests engine
  have known : ∀ name, .seed name ∈ requests ∨ provenanceDemo.Pushes name →
      provenanceDemo.Resolves (primitives.provides ()) name := by
    rintro name (seeded | ⟨function, member, pushed⟩)
    · cases (show name = "f" by simpa [requests] using seeded)
      exact .inr (.inl ⟨_, List.mem_cons_self, rfl⟩)
    · have pushed : name = "#_intrin_put" ∨ name = "g" := by
        rcases List.mem_cons.mp member with rfl | later
        · simpa using pushed
        · cases List.mem_singleton.mp later
          cases pushed
      rcases pushed with rfl | rfl
      · exact .inl ⟨"put", rfl, rfl⟩
      · exact .inr (.inl ⟨_, List.mem_cons_of_mem _ List.mem_cons_self, rfl⟩)
  obtain ⟨-, -, never⟩ := names_resolve_statically provenanceDemo primitives
    (primitives.provides ()) (fun _ => rfl) () requests
  exact ⟨rfl, rfl, known, never known⟩

end Engine

end Dataflow
