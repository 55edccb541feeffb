import Mathlib.Algebra.GroupWithZero.Nat
import Mathlib.Algebra.Order.BigOperators.Group.List
import Mathlib.Algebra.Order.Group.Nat
import Mathlib.Order.WellFoundedSet
import Dataflow.Proofs.CallSoundness
import Dataflow.Proofs.NameProvenance

/-! Runs of programs without recursion end. Every function gets a ceiling, no smaller than
the cost of anything that its body can enqueue; its own cost is one for its end, and for each
command one and the ceiling. The load of an engine is the cost of all that is pending and of
what is left of the running body. A step that makes progress lowers the load: the command
that it spends pays for the task that it may enqueue. -/
namespace Dataflow

/-! ### Costs -/

namespace Program

/-- The body of the caller pushes a word that stands for the callee. -/
def Invokes (provided : String → Bool) (program : Program) (caller callee : Function) : Prop :=
  caller ∈ program.functions ∧ callee ∈ program.functions ∧
    .push callee.name ∈ caller.commands ∧
    Target.resolve provided program callee.name = some .function

instance (provided : String → Bool) (program : Program) (caller callee : Function) :
    Decidable (program.Invokes provided caller callee) :=
  inferInstanceAs (Decidable (_ ∧ _ ∧ _ ∧ _))

/-- No function leads back to itself. -/
def Acyclic (provided : String → Bool) (program : Program) : Prop :=
  ∀ function, ¬ Relation.TransGen (program.Invokes provided) function function

variable {provided : String → Bool} {program : Program}

/-- A program has finitely many functions, so that every chain of calls ends if none is a
circle. -/
theorem acyclic_grounded (acyclic : program.Acyclic provided) :
    WellFounded fun callee caller => program.Invokes provided caller callee := by
  let Below (callee caller : Function) := Relation.TransGen (program.Invokes provided) caller callee
  have order : IsStrictOrder Function Below :=
    { irrefl := acyclic
      trans := fun _ _ _ first second => second.trans first }
  have finite : {function | function ∈ program.functions}.Finite := List.finite_toSet _
  apply Subrelation.wf _ (Set.wellFoundedOn_iff.mp (finite.wellFoundedOn (r := Below)))
  intro callee caller invokes
  exact ⟨.single invokes, invokes.2.1, invokes.1⟩

/-- A rank that drops from every caller to its callees rules out circles. -/
theorem acyclic_of_rank (rank : Function → Nat)
    (drops : ∀ caller callee, program.Invokes provided caller callee → rank callee < rank caller) :
    program.Acyclic provided := by
  have below {caller callee : Function}
      (chain : Relation.TransGen (program.Invokes provided) caller callee) :
      rank callee < rank caller := by
    induction chain with
    | single invokes => exact drops _ _ invokes
    | tail _ invokes ih => exact (drops _ _ invokes).trans ih
  exact fun function circle => Nat.lt_irrefl _ (below circle)

end Program

/-- The most steps that a call of the function can cause, if none of the calls that it
enqueues can cause more than `ceiling`. -/
def Function.cost (function : Function) (ceiling : Nat) : Nat :=
  function.size * (ceiling + 1) + 1

namespace Program

variable {provided : String → Bool} {program : Program}

/-- The costs of all callees together, and one. -/
noncomputable def ceiling
    (grounded : WellFounded fun callee caller => program.Invokes provided caller callee) :
    Function → Nat :=
  grounded.fix fun caller ceiling =>
    (program.functions.map fun callee =>
      if invokes : program.Invokes provided caller callee then
        callee.cost (ceiling callee invokes)
      else 0).sum + 1

/-- The most steps that a task of this name can cause. A primitive is done in one, and so is
a name that stands for nothing. -/
def weight (provided : String → Bool) (program : Program) (ceiling : Function → Nat)
    (name : String) : Nat :=
  match Target.resolve provided program name, program.get? name with
  | some .function, some function => function.cost (ceiling function)
  | _, _ => 1

theorem weight_pos (provided : String → Bool) (program : Program) (ceiling : Function → Nat)
    (name : String) : 0 < program.weight provided ceiling name := by
  unfold weight
  split
  · exact Nat.succ_pos _
  · exact Nat.one_pos

theorem weight_function {ceiling : Function → Nat} {name : String} {function : Function}
    (target : Target.resolve provided program name = some .function)
    (found : program.get? name = some function) :
    program.weight provided ceiling name = function.cost (ceiling function) := by
  simp only [weight, target, found]

/-- Nothing that a body pushes weighs more than the ceiling of its function. -/
theorem weight_le_ceiling
    (grounded : WellFounded fun callee caller => program.Invokes provided caller callee)
    {caller : Function} (member : caller ∈ program.functions) {word : String}
    (pushed : .push word ∈ caller.commands) :
    program.weight provided (ceiling grounded) word ≤ ceiling grounded caller := by
  rw [ceiling, WellFounded.fix_eq, ← ceiling]
  unfold weight
  split
  · rename_i callee target found
    obtain ⟨held, rfl⟩ := get?_eq_some_iff.mp found
    have invokes : program.Invokes provided caller callee := ⟨member, held, pushed, target⟩
    apply Nat.le_succ_of_le
    apply List.le_sum_of_mem
    exact List.mem_map.mpr ⟨callee, held, dif_pos invokes⟩
  · exact Nat.le_add_left _ _

end Program

/-! ### Loads -/

namespace Queue

/-- The weights of all pending tasks together. -/
def load (weigh : String → Nat) (queue : Queue) : Nat :=
  (queue.tasks.map fun task => weigh task.label).sum

theorem load_push (weigh : String → Nat) (queue : Queue) (task : Task) :
    (queue.push task).load weigh = queue.load weigh + weigh task.label := by
  simp [load, push]

theorem load_take (weigh : String → Nat) (skipped : List Task) (task : Task) (later : List Task) :
    load weigh ⟨skipped ++ task :: later⟩ = load weigh ⟨skipped ++ later⟩ + weigh task.label := by
  simp only [load, List.map_append, List.map_cons, List.sum_append, List.sum_cons]
  omega

end Queue

namespace Engine

/-- What is left to pay for the running function. -/
def frameLoad (program : Program) (ceiling : Function → Nat) : Option Frame → Nat
  | none => 0
  | some frame =>
    match program.get? frame.label with
    | none => 0
    | some function => (function.size - frame.position.toNat) * (ceiling function + 1) + 1

/-- What is left to pay for all that is pending or running. -/
def load (provided : String → Bool) (ceiling : Function → Nat) (engine : Engine σ) : Nat :=
  engine.queue.load (engine.program.weight provided ceiling) +
    frameLoad engine.program ceiling engine.frame

/-- Each body is short enough for its positions to be words. No list that a machine can hold
is longer. -/
def Addressable (program : Program) : Prop :=
  ∀ function ∈ program.functions, function.size < UInt64.size

instance (program : Program) : Decidable (Addressable program) :=
  inferInstanceAs (Decidable (∀ function ∈ program.functions, function.size < UInt64.size))

variable {provided : String → Bool} {primitives : Primitives σ} {engine after : Engine σ}
  {frame : Frame} {task : Task} {step : Step} {Given : String → Prop} {program : Program}
  {function : Function}

theorem frameLoad_some (ceiling : Function → Nat)
    (found : program.get? frame.label = some function) :
    frameLoad program ceiling (some frame) =
      (function.size - frame.position.toNat) * (ceiling function + 1) + 1 := by
  simp only [frameLoad, found]

private theorem left_of_body {position : UInt64} {command : Command}
    (short : function.size < UInt64.size)
    (here : function.commands[position.toNat]? = some command) :
    function.size - position.toNat = function.size - (position + 1).toNat + 1 := by
  have inside : position.toNat < function.size := (List.getElem?_eq_some_iff.mp here).1
  have next : (position + 1).toNat = position.toNat + 1 := by
    rw [UInt64.toNat_add]
    apply Nat.mod_eq_of_lt
    exact Nat.lt_of_le_of_lt inside short
  omega

/-- A running function that goes on lowers the load. -/
theorem advances_load (engine : Engine σ)
    (grounded : WellFounded fun callee caller => engine.program.Invokes provided caller callee)
    (short : Addressable engine.program) (traced : engine.Traced Given)
    (running : engine.frame = some frame) (advances : Advances engine frame step after) :
    after.load provided (Program.ceiling grounded) <
      engine.load provided (Program.ceiling grounded) := by
  obtain ⟨function, member, within⟩ := traced.frame frame running
  have found := within_get? member within
  have now := frameLoad_some (Program.ceiling grounded) found
  cases advances with
  | finish _ ended =>
    simp only [load, running, now]
    show _ + 0 < _
    omega
  | @command called command machine body here rule =>
    cases found.symm.trans body
    have carries := Machine.executes_carries rule
    -- the frame pays for the command and for all that the command may enqueue
    have next : frameLoad engine.program (Program.ceiling grounded)
        (some { machine.frame with position := frame.position + 1 }) =
        (function.size - (frame.position + 1).toNat) * (Program.ceiling grounded function + 1) +
          1 := by
      apply frameLoad_some
      rw [← found]
      exact congrArg (fun task : Task => engine.program.get? task.label) carries.task
    rw [left_of_body (short function member) here, Nat.succ_mul] at now
    simp only [load, running, now, next]
    rcases carries.queue with same | ⟨issued, name, pushed, named, top⟩
    · rw [same]
      show engine.queue.load _ + _ < _
      omega
    · have light := Program.weight_le_ceiling grounded member (within.words name top)
      have label : issued.label = name := by rw [Task.label, named]; rfl
      rw [pushed, Queue.load_push, label]
      show engine.queue.load _ + _ + _ < _
      omega

private theorem start_load (ceiling : Function → Nat)
    (target : Target.resolve provided program task.label = some .function)
    (found : program.get? task.label = some function) :
    frameLoad program ceiling (some (.start task)) =
      program.weight provided ceiling task.label := by
  rw [Program.weight_function target found]
  exact frameLoad_some ceiling found

/-- A step that makes progress lowers the load. -/
theorem steps_load (fixed : ∀ state, primitives.provides state = provided)
    (grounded : WellFounded fun callee caller => engine.program.Invokes provided caller callee)
    (short : Addressable engine.program) (traced : engine.Traced Given)
    (steps : Steps primitives engine step after) (progress : step.madeProgress = true) :
    after.load provided (Program.ceiling grounded) <
      engine.load provided (Program.ceiling grounded) := by
  cases steps with
  | advance running advances => exact advances_load engine grounded short traced running advances
  | halt idle nothing => split at progress <;> cases progress
  | @dispatch skipped later task _ _ idle chosen dispatches =>
    have shape : engine.queue = ⟨skipped ++ task :: later⟩ := by
      rw [← (Selection.ready_eq chosen).1]
    have taken := Queue.load_take (engine.program.weight provided (Program.ceiling grounded))
      skipped task later
    rw [← shape] at taken
    cases dispatches with
    | primitive target read replied enough bound =>
      have heavy := Program.weight_pos provided engine.program (Program.ceiling grounded) task.label
      simp only [load, taken, idle]
      omega
    | function target advances =>
      obtain ⟨waiting, name, label, -⟩ := taken_traced traced chosen
      have started := start_traced waiting label target
      obtain ⟨function, member, within⟩ := started.frame _ rfl
      have lower := advances_load
        { engine with queue := ⟨skipped ++ later⟩, frame := some (.start task) } grounded short
        started rfl advances
      rw [fixed] at target
      have same := start_load (Program.ceiling grounded) target (within_get? member within)
      simp only [load, taken, idle, same] at lower ⊢
      exact lower

/-! ### Runs -/

/-- The load is a bound on the steps that a run takes. -/
theorem run_ends (fixed : ∀ state, primitives.provides state = provided)
    (grounded : WellFounded fun callee caller => program.Invokes provided caller callee)
    (short : Addressable program) {fuel : Nat} (held : engine.program = program)
    (traced : engine.Traced Given)
    (enough : engine.load provided (Program.ceiling grounded) < fuel) :
    ∃ result, engine.run primitives fuel = some result := by
  induction fuel generalizing engine with
  | zero => exact absurd enough (Nat.not_lt_zero _)
  | succ fuel ih =>
    rcases run_ends_or_goes_on primitives engine with
      ⟨result, ends⟩ | ⟨step, after, steps, progress⟩
    · exact ⟨result, ends fuel⟩
    · have stepped := step_ok_iff.mpr steps
      have kept := step_program primitives engine
      have next := step_traced primitives traced
      rw [stepped] at kept next
      rw [run_progress steps progress]
      subst held
      have lower := steps_load fixed grounded short traced steps progress
      exact ih kept next (Nat.lt_of_lt_of_le lower (Nat.le_of_lt_succ enough))

/-- Every run of a program without recursion ends, wherever its history has led it and
whatever became of the steps on the way: from some number of steps on, more steps do not
change the reply, and the reply is that nothing is left to do, that what is left can never
become ready, or an error. -/
theorem acyclic_runs_end (program : Program) (primitives : Primitives σ)
    (provided : String → Bool) (fixed : ∀ state, primitives.provides state = provided)
    (short : Addressable program) (acyclic : program.Acyclic provided) (host : σ)
    (requests : List Request) :
    ∃ bound reply final,
      (∀ fuel, bound ≤ fuel →
        ((ofProgram program host).after primitives requests).run primitives fuel =
          some (reply, final)) ∧
      reply ≠ .error .unsoundCall := by
  have grounded := Program.acyclic_grounded acyclic
  have held := after_program primitives (ofProgram program host) requests
  obtain ⟨⟨reply, final⟩, ran⟩ := run_ends fixed grounded short held
    (history_traced primitives program host requests) (Nat.lt_succ_self _)
  refine ⟨_, reply, final, fun fuel => run_mono ran, ?_⟩
  exact run_sound_call (history_sound_call primitives program host requests) ran

/-- The first function enqueues one call of the second three times. -/
private def layeredDemo : Program :=
  .ofFunctions [⟨"f", [.push "g", .dupl, .dupl, .pushFunc, .pushFunc, .pushFunc]⟩,
    ⟨"g", [.create, .assign 7, .input, .push "putstring", .pushFunc]⟩] (by decide)

/-- Within the first function, after the first of its calls and with another one of itself
waiting. -/
theorem acyclic_runs_end_mid_body :
    let engine := (ofProgram layeredDemo .unlimited).after .standard
      [.seed "f", .step, .step, .step, .step, .seed "f"]
    layeredDemo.Acyclic (Primitives.standard.provides .unlimited) ∧
    engine.frame.map (·.position) = some 4 ∧
    engine.queue.tasks = [.named "g", .named "f"] ∧
    ∃ bound reply final,
      (∀ fuel, bound ≤ fuel → engine.run .standard fuel = some (reply, final)) ∧
      reply ≠ .error .unsoundCall := by
  intro engine
  have acyclic : layeredDemo.Acyclic (Primitives.standard.provides .unlimited) := by
    have drops : ∀ caller ∈ layeredDemo.functions, ∀ callee ∈ layeredDemo.functions,
        .push callee.name ∈ caller.commands → callee.size < caller.size := by decide
    apply Program.acyclic_of_rank Function.size
    rintro caller callee ⟨calling, called, pushed, -⟩
    exact drops caller calling callee called pushed
  refine ⟨acyclic, rfl, rfl, ?_⟩
  exact acyclic_runs_end layeredDemo .standard _ (fun _ => rfl) (by decide) acyclic .unlimited _

end Engine

end Dataflow
