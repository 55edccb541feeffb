import Dataflow.CommandLine.World
import Dataflow.Proofs.CallSoundness
import Dataflow.Proofs.FileWrites
import Dataflow.Proofs.PacedSteps

/-! A call of the program with a budget leaves a checkpoint when the budget is spent, and the
next call goes on from there. Between two calls nothing but the files is kept. What the chain
of calls keeps is that the checkpoint describes an engine on the way of the uninterrupted run,
and that everything this run had written by then has been printed. -/
namespace Dataflow.CommandLine

/-! ### Performing sessions -/

theorem perform_bind (first : Session α) (next : α → Session β) (world : World) :
    World.perform (first >>= next) world =
      World.perform (next (World.perform first world).1) (World.perform first world).2 := by
  show World.perform (first.bind next) world = _
  induction first generalizing world with
  | done result => rfl
  | print stream text rest ih => exact ih () _
  | read path rest ih => exact ih _ _
  | write path text rest ih =>
    simp only [Session.bind, World.perform]
    split
    · exact ih _ _
    · exact ih _ _

/-- Complaints and logs touch neither the files nor the output. -/
theorem perform_complaints (lines : List String) (world : World) :
    ∃ err, World.perform (Session.putLines .err lines) world = ((), { world with err := err }) := by
  induction lines generalizing world with
  | nil => exact ⟨world.err, rfl⟩
  | cons line rest ih => exact ih (world.print .err (line ++ "\n"))

theorem perform_flush (engine : Engine Console) (world : World) :
    World.perform (flush engine) world =
      (engine.drained, { world with out := world.out ++ engine.host.text }) := by
  unfold flush
  split
  · rename_i empty
    have nothing : engine.host.text = "" := by simpa using empty
    have same : engine.drained = engine := by
      rw [Engine.drained, Console.drained, ← nothing]
    rw [same, nothing, String.append_empty]
    rfl
  · rfl

/-- The loop of the command line goes as its account says, and prints what was written. -/
theorem perform_drive (verbosity : Verbosity) (fuel : Nat) (budget : Option UInt64)
    (engine : Engine Console) (world : World) :
    let pace := Pace.ofEngine fuel budget engine
    ∃ err, World.perform (drive verbosity fuel budget engine) world =
      (pace.stop.map fun ending => (ending, pace.engine),
        { world with out := world.out ++ pace.written, err := err }) := by
  induction fuel generalizing budget engine world with
  | zero => exact ⟨world.err, by simp [drive, Pace.ofEngine, World.perform, pure, Except.map]⟩
  | succ fuel ih =>
    by_cases spent : budget = some 0
    · subst spent
      exact ⟨world.err, by simp [drive, Pace.ofEngine, World.perform, pure, Except.map]⟩
    · obtain ⟨err, logged⟩ := perform_complaints
        (((engine.stepJournal .standard).filter verbosity.admits).map logLine) world
      rw [drive, if_neg spent, perform_bind, logEvents, logged, Pace.ofEngine, if_neg spent]
      cases engine.step .standard with
      | mk answer next =>
        dsimp only
        rw [perform_bind, perform_flush]
        cases answer with
        | error failure => cases failure <;> exact ⟨err, rfl⟩
        | ok step =>
          cases step with
          | done => exact ⟨err, rfl⟩
          | stalled pending => exact ⟨err, rfl⟩
          | _ =>
            obtain ⟨last, performed⟩ := ih (budget.map (· - 1)) next.drained
              { world with out := world.out ++ next.host.text, err := err }
            refine ⟨last, performed.trans ?_⟩
            rw [String.append_assoc]
            rfl

private theorem perform_verdict (ending : Ending) (world : World) :
    ∃ err, World.perform (match ending with
      | .failed error => do
        Session.putLines .err (errorReport error)
        return .status 1
      | _ => return Exit.status 0) world = (.status ending.code, { world with err := err }) := by
  cases ending with
  | failed error =>
    obtain ⟨err, reported⟩ := perform_complaints (errorReport error) world
    refine ⟨err, ?_⟩
    dsimp only
    rw [perform_bind, reported]
    rfl
  | _ => exact ⟨world.err, rfl⟩

theorem perform_conclude (options : Options) (ending : Ending) (engine : Engine Console)
    (world : World) :
    ∃ err, World.perform (conclude options ending engine) world =
      (.status ending.code, { world with err := err }) := by
  unfold conclude
  dsimp only
  split
  · obtain ⟨err, reported⟩ := perform_complaints (leakReport engine.store engine.queue.size) world
    rw [perform_bind, reported]
    exact perform_verdict ending { world with err := err }
  · exact perform_verdict ending world

theorem perform_checkpoint {options : Options} {path : String}
    (asked : options.checkpoint = some path) (ending : Ending) {engine : Engine Console}
    {world : World} {files : FileTree}
    (written : world.files.write path engine.snapshot.toText = .ok files) :
    ∃ err, World.perform (checkpoint options ending engine) world =
      (.status ending.code, { world with files := files, err := err }) := by
  simp only [checkpoint, asked, World.perform, written]
  exact perform_conclude options ending engine _

/-- A call that gets its engine and can write its checkpoint. -/
theorem perform_run {options : Options} {path record source : String} {program : Program}
    {engine : Engine Console} {world : World} {files : FileTree} {ending : Ending}
    (found : world.files.read path = .ok source) (accepted : Source.parse source = .ok program)
    (opened : ∀ next, World.perform (withEngine options program next) world =
      World.perform (next engine) world)
    (asked : options.checkpoint = some record) (fuel : Nat) (verbosity : Verbosity) :
    let pace := Pace.ofEngine fuel options.maxSteps (configured options engine)
    pace.stop = .ok ending → world.files.write record pace.engine.snapshot.toText = .ok files →
      ∃ err, World.perform (runFile fuel verbosity options path) world =
        (.status ending.code, ⟨files, world.out ++ pace.written, err⟩) := by
  intro pace stop written
  have stopped : (Pace.ofEngine fuel options.maxSteps (configured options engine)).stop =
    .ok ending := stop
  obtain ⟨err, driven⟩ := perform_drive verbosity fuel options.maxSteps
    (configured options engine) world
  rw [stopped] at driven
  simp only [runFile, withProgram, World.perform, found, accepted, opened]
  rw [perform_bind, driven]
  dsimp only [Except.map]
  obtain ⟨noted, notice⟩ := perform_complaints (ending.notice? pace.engine.steps).toList
    { world with out := world.out ++ pace.written, err := err }
  rw [perform_bind, notice]
  exact perform_checkpoint asked ending written

/-! ### Chains of calls -/

/-- A call of the program: the log setting of the environment, and the words. -/
structure Invocation where
  setting : Option String
  words : List String

namespace Invocation

def perform (fuel : Nat) (invocation : Invocation) (world : World) : Exit × World :=
  World.perform (session fuel invocation.setting invocation.words) world

/-- Calls one after another, each in the world that the one before left. -/
def performAll (fuel : Nat) : List Invocation → World → List Exit × World
  | [], world => ([], world)
  | invocation :: rest, world =>
    let (exit, after) := invocation.perform fuel world
    let (exits, last) := performAll fuel rest after
    (exit :: exits, last)

end Invocation

/-- What the calls of a chain have in common: the program file, the function that is run at
first, whether reads are strict, and the file of the checkpoint. -/
structure Chain where
  path : String
  entry : String
  strict : Bool
  checkpoint : String

namespace Chain

def policy (chain : Chain) : ReadPolicy := if chain.strict then .strict else .lenient

/-- The engine that an uninterrupted run starts with. -/
def start (chain : Chain) (program : Program) : Engine Console :=
  ((Engine.ofProgram program .unlimited).seed chain.entry).setPolicy chain.policy

/-- The options of a call that starts at the entry, or goes on from a file, with a budget. -/
structure Fits (chain : Chain) (resume : Option String) (budget : Option UInt64)
    (options : Options) : Prop where
  strict : options.strictReads = chain.strict
  entry : resume = none → options.entry = chain.entry
  resume : options.resume = resume
  budget : options.maxSteps = budget
  checkpoint : options.checkpoint = some chain.checkpoint

/-- The words of a call ask for such a run. -/
def Asks (chain : Chain) (resume : Option String) (budget : Option UInt64)
    (invocation : Invocation) : Prop :=
  ∃ options rest, Options.parse invocation.words = .ok (options, rest) ∧
    Action.ofWords rest = .run chain.path ∧ chain.Fits resume budget options

/-- The program file can be read. The checkpoint can be written, and is another file. -/
structure Ready (chain : Chain) (source : String) (files : FileTree) : Prop where
  found : files.read chain.path = .ok source
  apart : ∀ text, ∃ next, files.write chain.checkpoint text = .ok next ∧
    next.read chain.path = .ok source

theorem ready_write {chain : Chain} {source text : String} {files next : FileTree}
    (ready : chain.Ready source files) (written : files.write chain.checkpoint text = .ok next) :
    chain.Ready source next := by
  constructor
  · obtain ⟨same, alike, found⟩ := ready.apart text
    cases written.symm.trans alike
    exact found
  · intro later
    rw [FileTree.write_write written]
    exact ready.apart later

/-- Between two calls: the checkpoint describes the engine, and what it has written is out. -/
structure Between (chain : Chain) (source past : String) (engine : Engine Console)
    (world : World) : Prop where
  ready : chain.Ready source world.files
  saved : world.files.read chain.checkpoint = .ok engine.snapshot.toText
  printed : world.out = past ++ engine.host.text

variable {chain : Chain} {source past : String} {program : Program} {needed fuel : Nat}
  {reply : Except Failure RunOutcome} {final engine : Engine Console} {world : World}
  {resume : Option String} {budget : Option UInt64} {options : Options}
  {invocation : Invocation}

/-- A call has stayed on the way of the uninterrupted run. It fails only where that run fails,
and without a budget it has come to the end. -/
def Proceeds (chain : Chain) (source past : String) (program : Program) (needed : Nat)
    (reply : Except Failure RunOutcome) (final : Engine Console) (budget : Option UInt64)
    (outcome : Exit × World) : Prop :=
  ∃ code reached, outcome.1 = .status code ∧ chain.Between source past reached outcome.2 ∧
    (code = 0 ∨ code = replyCode reply) ∧
    (code = 0 → Underway program chain.policy needed reply final reached) ∧
    (budget = none → reached = final ∧ code = replyCode reply)

theorem Proceeds.succeeds {outcome : Exit × World}
    (proceeds : chain.Proceeds source past program needed reply final budget outcome)
    (fine : replyCode reply = 0) : outcome.1 = .status 0 := by
  obtain ⟨code, reached, exit, between, fails, -⟩ := proceeds
  rcases fails with well | same
  · rw [exit, well]
  · rw [exit, same, fine]

theorem Proceeds.goes_on {outcome : Exit × World}
    (proceeds : chain.Proceeds source past program needed reply final budget outcome)
    (succeeded : outcome.1 = .status 0) :
    ∃ reached, chain.Between source past reached outcome.2 ∧
      Underway program chain.policy needed reply final reached := by
  obtain ⟨code, reached, exit, between, -, goes, -⟩ := proceeds
  have well : code = 0 := Exit.status.inj (exit.symm.trans succeeded)
  exact ⟨reached, between, goes well⟩

/-- One call, wherever it has its engine from. -/
theorem call_proceeds (ready : chain.Ready source world.files)
    (accepted : Source.parse source = .ok program)
    (underway : Underway program chain.policy needed reply final engine)
    (safe : reply ≠ .error .unsoundCall) (enough : needed ≤ fuel)
    (printed : world.out = past ++ engine.host.text) {bare : Engine Console}
    {rest : List String} (parsed : Options.parse invocation.words = .ok (options, rest))
    (runs : Action.ofWords rest = .run chain.path) (fits : chain.Fits resume budget options)
    (opened : ∀ next, World.perform (withEngine options program next) world =
      World.perform (next bare) world)
    (tuned : configured options bare = engine.rehost Console.unlimited) :
    chain.Proceeds source past program needed reply final budget
      (invocation.perform fuel world) := by
  obtain ⟨reached, ending, stop, same, written, code, goes, ends⟩ :=
    pace_underway underway safe enough budget
  rw [← tuned, ← fits.budget] at stop same written
  obtain ⟨files, wrote, -⟩ := ready.apart reached.snapshot.toText
  have saves : world.files.write chain.checkpoint
      (Pace.ofEngine fuel options.maxSteps (configured options bare)).engine.snapshot.toText =
      .ok files := by
    rw [same]
    exact wrote
  obtain ⟨err, performed⟩ := perform_run ready.found accepted opened fits.checkpoint fuel
    (.choose invocation.setting options) stop saves
  have call : invocation.perform fuel world = World.perform
      (runFile fuel (.choose invocation.setting options) options chain.path) world := by
    simp only [Invocation.perform, session, parsed, CommandLine.perform, runs]
  rw [call, performed]
  refine ⟨ending.code, reached, rfl, ⟨ready_write ready wrote, FileTree.read_write wrote, ?_⟩,
    code, goes, ends⟩
  rw [written, printed, String.append_assoc]

/-- The first call starts at the entry. -/
theorem first_call_proceeds (ready : chain.Ready source world.files)
    (accepted : Source.parse source = .ok program)
    (underway : Underway program chain.policy needed reply final (chain.start program))
    (safe : reply ≠ .error .unsoundCall) (enough : needed ≤ fuel)
    (asks : chain.Asks none budget invocation) :
    chain.Proceeds source world.out program needed reply final budget
      (invocation.perform fuel world) := by
  obtain ⟨options, rest, parsed, runs, fits⟩ := asks
  have opened (next : Engine Console → Session Exit) :
      withEngine options program next =
        next ((Engine.ofProgram program .unlimited).seed chain.entry) := by
    simp only [withEngine, fits.resume, fits.entry rfl]
  apply call_proceeds ready accepted underway safe enough String.append_empty.symm parsed runs fits
  · exact fun next => by rw [opened]
  · simp only [configured, fits.strict, start, policy]
    cases chain.strict <;> rfl

/-- A later call goes on from the checkpoint. -/
theorem later_call_proceeds (between : chain.Between source past engine world)
    (accepted : Source.parse source = .ok program)
    (underway : Underway program chain.policy needed reply final engine)
    (safe : reply ≠ .error .unsoundCall) (enough : needed ≤ fuel)
    (asks : chain.Asks (some chain.checkpoint) budget invocation) :
    chain.Proceeds source past program needed reply final budget
      (invocation.perform fuel world) := by
  obtain ⟨options, rest, parsed, runs, fits⟩ := asks
  have restored : restore program engine.snapshot.toText =
      .ok (engine.rehost Console.unlimited) :=
    Engine.reopen_eq underway.program Console.unlimited
  apply call_proceeds between.ready accepted underway safe enough between.printed parsed runs fits
  · intro next
    simp only [withEngine, fits.resume, World.perform, between.saved, restored]
    rfl
  · -- asking for the policy once more changes nothing
    have same := underway.policy
    unfold configured
    split
    · rename_i strict
      rw [policy, ← fits.strict, if_pos strict] at same
      simp only [Engine.setPolicy, Engine.rehost, same]
    · rfl

/-- Calls with budgets, after one that has stayed on the way, stay on it as long as they
succeed. They do unless the uninterrupted run fails. -/
theorem calls_proceed {first : Invocation} {calls : List (UInt64 × Invocation)}
    (opening : chain.Proceeds source past program needed reply final budget
      (first.perform fuel world))
    (accepted : Source.parse source = .ok program) (safe : reply ≠ .error .unsoundCall)
    (enough : needed ≤ fuel)
    (asks : ∀ call ∈ calls, chain.Asks (some chain.checkpoint) (some call.1) call.2) :
    let outcome := Invocation.performAll fuel (first :: calls.map (·.2)) world
    (replyCode reply = 0 → ∀ exit ∈ outcome.1, exit = .status 0) ∧
      ((∀ exit ∈ outcome.1, exit = .status 0) →
        ∃ reached, chain.Between source past reached outcome.2 ∧
          Underway program chain.policy needed reply final reached) := by
  induction calls generalizing first world budget with
  | nil =>
    constructor
    · intro fine exit member
      rw [List.mem_singleton.mp member]
      exact opening.succeeds fine
    · intro succeeded
      exact opening.goes_on (succeeded _ List.mem_cons_self)
  | cons call rest ih =>
    have later (well : (first.perform fuel world).1 = .status 0) :=
      have ⟨_, between, underway⟩ := opening.goes_on well
      ih (later_call_proceeds between accepted underway safe enough (asks call List.mem_cons_self))
        fun other member => asks other (List.mem_cons_of_mem _ member)
    constructor
    · intro fine exit member
      have well := opening.succeeds fine
      rcases List.mem_cons.mp member with rfl | member
      · exact well
      · exact (later well).1 fine exit member
    · intro succeeded
      exact (later (succeeded _ List.mem_cons_self)).2 fun exit member =>
        succeeded exit (List.mem_cons_of_mem _ member)

end Chain

/-- Runs with budgets chain to one uninterrupted run. The first call starts at the entry, each
later one goes on from the checkpoint of the one before, and the last has no budget. If all
calls but the last succeed, which they do unless the uninterrupted run fails, then together they
print what that run writes, the checkpoint at the end is that of its last engine, and the last
exit code tells how it ended. A call with a budget makes at most as many steps as the budget
says, and what is left of the budget never passes zero. -/
theorem budgeted_runs_chain (chain : Chain) (world : World) (source : String) (program : Program)
    (ready : chain.Ready source world.files) (accepted : Source.parse source = .ok program)
    (needed : Nat) (reply : Except Failure RunOutcome) (final : Engine Console)
    (ran : (chain.start program).run .standard needed = some (reply, final))
    (budget : UInt64) (first : Invocation) (calls : List (UInt64 × Invocation))
    (last : Invocation) (starts : chain.Asks none (some budget) first)
    (resumes : ∀ call ∈ calls, chain.Asks (some chain.checkpoint) (some call.1) call.2)
    (ends : chain.Asks (some chain.checkpoint) none last) (fuel : Nat) (enough : needed ≤ fuel) :
    let paused := Invocation.performAll fuel (first :: calls.map (·.2)) world
    let ended := last.perform fuel paused.2
    (replyCode reply = 0 → ∀ exit ∈ paused.1, exit = .status 0) ∧
    ((∀ exit ∈ paused.1, exit = .status 0) →
      ended.2.out = world.out ++ final.host.text ∧
      ended.2.files.read chain.checkpoint = .ok final.snapshot.toText ∧
      ended.1 = .status (replyCode reply)) ∧
    ∀ verbosity limit allowed engine before,
      let pace := Pace.ofEngine limit (some allowed) engine
      (∃ err, World.perform (drive verbosity limit (some allowed) engine) before =
        (pace.stop.map fun ending => (ending, pace.engine),
          { before with out := before.out ++ pace.written, err := err })) ∧
        pace.answers.length ≤ allowed.toNat ∧
        ∃ left, pace.left = some left ∧ left.toNat + pace.progress = allowed.toNat := by
  intro paused ended
  have safe : reply ≠ .error .unsoundCall :=
    Engine.run_sound_call (fun frame running => by cases running) ran
  have underway : Underway program chain.policy needed reply final (chain.start program) :=
    ⟨rfl, rfl, rfl, ran⟩
  have opening := Chain.first_call_proceeds ready accepted underway safe enough starts
  obtain ⟨succeed, goes⟩ := Chain.calls_proceed opening accepted safe enough resumes
  refine ⟨succeed, fun succeeded => ?_, fun verbosity limit allowed engine before => ?_⟩
  · obtain ⟨reached, between, onward⟩ := goes succeeded
    obtain ⟨code, arrived, exit, finish, -, -, atEnd⟩ :=
      Chain.later_call_proceeds between accepted onward safe enough ends
    obtain ⟨rfl, rfl⟩ := atEnd rfl
    exact ⟨finish.printed, finish.saved, exit⟩
  · exact ⟨perform_drive verbosity limit (some allowed) engine before,
      Pace.within_budget limit allowed engine⟩

/-- A program that prints one cell twice. -/
private def chainDemoSource : String :=
  "start #main\n  create\n  assign 7\n  input\n  push putstring\n  dupl\n" ++
    "  push_func\n  push_func\nfinish\n"

private def chainDemoProgram : Program :=
  .ofFunctions
    [⟨"#main", [.create, .assign 7, .input, .push "putstring", .dupl, .pushFunc, .pushFunc]⟩]
    (by decide)

private def chainDemo : Chain := ⟨"p.cf", "#main", false, "c.json"⟩

private def chainDemoFiles : FileTree := ⟨[(["p.cf"], .file (some chainDemoSource))]⟩

private theorem chainDemo_ready : chainDemo.Ready chainDemoSource chainDemoFiles where
  found := by rfl
  apart text := by
    have written : chainDemoFiles.write "c.json" text =
      .ok (chainDemoFiles.put ["c.json"] (.file (some text))) := by rfl
    exact ⟨_, written, by rfl⟩

private def chainDemoFirst : Invocation :=
  ⟨none, ["run", "p.cf", "--checkpoint", "c.json", "--max-steps", "4"]⟩

private def chainDemoResume : List String :=
  ["p.cf", "--resume", "c.json", "--checkpoint", "c.json"]

private def chainDemoCalls : List (UInt64 × Invocation) :=
  [(0, ⟨none, chainDemoResume ++ ["--max-steps", "0"]⟩),
    (5, ⟨none, chainDemoResume ++ ["--max-steps", "5"]⟩)]

private def chainDemoLast : Invocation := ⟨some "debug", chainDemoResume⟩

private theorem chainDemo_starts : chainDemo.Asks none (some 4) chainDemoFirst :=
  ⟨_, _, rfl, rfl, rfl, fun _ => rfl, rfl, rfl, rfl⟩

private theorem chainDemo_resumes :
    ∀ call ∈ chainDemoCalls, chainDemo.Asks (some "c.json") (some call.1) call.2 := by
  rintro call (_ | ⟨_, _ | ⟨_, ⟨⟩⟩⟩)
  · exact ⟨_, _, rfl, rfl, rfl, nofun, rfl, rfl, rfl⟩
  · exact ⟨_, _, rfl, rfl, rfl, nofun, rfl, rfl, rfl⟩

private theorem chainDemo_ends : chainDemo.Asks (some "c.json") none chainDemoLast :=
  ⟨_, _, rfl, rfl, rfl, nofun, rfl, rfl, rfl⟩

/-- The first call is cut within the function, the second makes no step, and the third is cut
between the two prints. -/
theorem budgeted_runs_chain_three_cuts :
    let paused := Invocation.performAll 11 (chainDemoFirst :: chainDemoCalls.map (·.2))
      (.ofFiles chainDemoFiles)
    let ended := chainDemoLast.perform 11 paused.2
    (∀ exit ∈ paused.1, exit = .status 0) ∧ ended.2.out = "7\n7\n" ∧ ended.1 = .status 0 := by
  have accepted : Source.parse chainDemoSource = .ok chainDemoProgram :=
    Source.parse_of_functions (by rfl)
  have report : ((chainDemo.start chainDemoProgram).run .standard 11).map (fun (reply, final) =>
      (replyCode reply, final.host.text)) = some (0, "7\n7\n") := by rfl
  obtain ⟨⟨reply, final⟩, ran, told⟩ := Option.map_eq_some_iff.mp report
  obtain ⟨code, text⟩ := Prod.mk.inj told
  obtain ⟨succeed, outcome, -⟩ := budgeted_runs_chain chainDemo (.ofFiles chainDemoFiles)
    chainDemoSource chainDemoProgram chainDemo_ready accepted 11 reply final ran 4 chainDemoFirst
    chainDemoCalls chainDemoLast chainDemo_starts chainDemo_resumes chainDemo_ends 11
    (Nat.le_refl 11)
  obtain ⟨out, -, exit⟩ := outcome (succeed code)
  have blank : (World.ofFiles chainDemoFiles).out = "" := rfl
  rw [text, blank, String.empty_append] at out
  rw [code] at exit
  exact ⟨succeed code, out, exit⟩

end Dataflow.CommandLine
