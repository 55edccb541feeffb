import Dataflow.Primitives.Scripted
import Dataflow.Proofs.CheckpointFidelity
import Dataflow.Proofs.StalledTasks
import Dataflow.Proofs.StoreSweep

/-! What a primitive does to an engine. Its task may list one cell many times, as input and as
output, and other tasks may list it too. The results are bound, then the references of the task
are given back, then the whole store is swept. The sweep is about all cells, but those that the
task does not list are referenced, since the engine was idle, so it removes none of them. -/
namespace Dataflow

namespace Store

variable {store bound : Store} {task : Task} {results : List Value} {id : CellId}

/-- Results are bound to outputs only. -/
theorem rebound_unlisted {outputs : List CellId} (results : List Value) (cell : Cell)
    (outside : id ∉ outputs) : rebound (outputs.zip results) id cell = cell := by
  apply (rebound_follows _ _ _).2
  intro member
  obtain ⟨binding, paired, rfl⟩ := List.mem_map.mp member
  exact outside (List.of_mem_zip paired).1

/-- A cell among the outputs is bound to the result at its last place there. -/
theorem rebound_last {outputs : List CellId} (cell : Cell)
    (enough : outputs.length ≤ results.length) (listed : id ∈ outputs) :
    (rebound (outputs.zip results) id cell).bound = true ∧
      ∃ place, outputs[place]? = some id ∧ id ∉ outputs.drop (place + 1) ∧
        results[place]? = some (rebound (outputs.zip results) id cell).value := by
  induction outputs generalizing results cell with
  | nil => cases listed
  | cons output outputs ih =>
    cases results with
    | nil => cases enough
    | cons result results =>
      rw [List.zip_cons_cons, rebound, List.foldl_cons, ← rebound]
      by_cases again : id ∈ outputs
      · obtain ⟨set, place, here, last, found⟩ := ih
          (if id = output then { cell with bound := true, value := result } else cell)
          (Nat.le_of_succ_le_succ enough) again
        exact ⟨set, place + 1, here, last, found⟩
      · have same : id = output := by simpa [again] using listed
        subst same
        rw [if_pos rfl, rebound_unlisted results _ again]
        exact ⟨rfl, 0, rfl, again, rfl⟩

/-- What a task that returned these results leaves of a store. -/
structure Concludes (task : Task) (results : List Value) (store after : Store) : Prop where
  /-- A listed cell had one reference for each time it is listed, and is gone exactly if it
  had no other. -/
  listed : ∀ id ∈ task.cells, ∃ cell, store.get? id = some cell ∧
    task.cells.count id ≤ cell.refs.toNat ∧
    (after.get? id = none ↔ cell.refs.toNat = task.cells.count id)
  lowered : ∀ id cell left, store.get? id = some cell → after.get? id = some left →
    left.refs.toNat + task.cells.count id = cell.refs.toNat
  /-- The result at the last place of a cell among the outputs counts. -/
  assigned : ∀ id ∈ task.outputs, ∀ left, after.get? id = some left →
    left.bound = true ∧ ∃ place, task.outputs[place]? = some id ∧
      id ∉ task.outputs.drop (place + 1) ∧ results[place]? = some left.value
  kept : ∀ id cell left, id ∉ task.outputs → store.get? id = some cell →
    after.get? id = some left → left.bound = cell.bound ∧ left.value = cell.value
  unlisted : ∀ id, id ∉ task.cells → after.get? id = store.get? id

/-- Binding the results of a task, giving its references back and sweeping the store, if the
task owns a reference for each cell it lists and the other cells are referenced. -/
theorem settled_concludes (enough : task.outputs.length ≤ results.length)
    (settled : store.bindAll (task.outputs.zip results) = .ok bound)
    (live : ∀ id ∈ task.cells, store.contains id = true)
    (owned : ∀ id cell, store.get? id = some cell → task.cells.count id ≤ cell.refs.toNat)
    (referenced : store.Referenced) :
    store.Concludes task results (bound.release task.cells).collect := by
  have outputs : ∀ binding ∈ task.outputs.zip results, store.contains binding.1 = true :=
    fun binding paired => live _ (List.mem_append.mpr (.inr (List.of_mem_zip paired).1))
  obtain ⟨expected, done, mapped⟩ := bindAll_live _ outputs
  cases done.symm.trans settled
  -- what the release and the sweep leave of a cell after its binding
  have retired : ∀ id cell, store.get? id = some cell →
      ((bound.release task.cells).collect.get? id = none ↔
        cell.refs.toNat ≤ task.cells.count id) ∧
      ∀ left, (bound.release task.cells).collect.get? id = some left →
        left.bound = (rebound (task.outputs.zip results) id cell).bound ∧
          left.value = (rebound (task.outputs.zip results) id cell).value ∧
          left.refs.toNat + task.cells.count id = cell.refs.toNat := by
    intro id cell held
    have assigned : bound.get? id = some (rebound (task.outputs.zip results) id cell) := by
      rw [mapped id, held]
      rfl
    simpa only [rebound_refs] using get?_retire task.cells assigned
  constructor
  · intro id member
    obtain ⟨cell, held⟩ := contains_iff.mp (live id member)
    have least := owned id cell held
    refine ⟨cell, held, least, (retired id cell held).1.trans ?_⟩
    exact ⟨fun most => Nat.le_antisymm most least, Nat.le_of_eq⟩
  · intro id cell left held now
    exact ((retired id cell held).2 left now).2.2
  · intro id output left now
    obtain ⟨cell, held⟩ := contains_iff.mp (live id (List.mem_append.mpr (.inr output)))
    obtain ⟨set, value, -⟩ := (retired id cell held).2 left now
    rw [set, value]
    exact rebound_last cell enough output
  · intro id cell left outside held now
    obtain ⟨set, value, -⟩ := (retired id cell held).2 left now
    rw [rebound_unlisted results cell outside] at set value
    exact ⟨set, value⟩
  · intro id outside
    have output : id ∉ task.outputs := fun member => outside (List.mem_append.mpr (.inr member))
    have same : bound.get? id = store.get? id := by
      rw [mapped id]
      cases store.get? id with
      | none => rfl
      | some cell => exact congrArg some (rebound_unlisted results cell output)
    rw [get?_retire_unlisted outside, same]
    rw [same]
    exact referenced id

end Store

namespace Engine

variable {primitives : Primitives σ} {engine after : Engine σ} {name : String}

/-- Only an idle engine runs a primitive, for the first task that is ready. -/
theorem primitive_dispatches (steps : Steps primitives engine (.primitive name) after) :
    ∃ skipped task later, engine.frame = none ∧
      engine.queue.select engine.store = .ready skipped task later ∧
      Dispatches primitives { engine with queue := ⟨skipped ++ later⟩ } task (.primitive name)
        after := by
  generalize told : Step.primitive name = step at steps
  cases steps with
  | advance running advances => cases advances <;> cases told
  | halt idle nothing => split at told <;> cases told
  | dispatch idle chosen dispatches =>
    subst told
    exact ⟨_, _, _, idle, chosen, dispatches⟩

/-- A step that runs a primitive calls it exactly once, on the values of the inputs of the first
task that is ready, and all of these are bound. The task is gone from the queue and the store is
as `Concludes` says; the engine was idle and still is. -/
theorem primitive_step_effect (primitives : Primitives σ) (program : Program) (host : σ)
    (requests : List Request) (few : requests.count .step < UInt32.size) :
    let engine := (ofProgram program host).after primitives requests
    let next := (engine.step primitives).2
    ∀ name, (engine.step primitives).1 = .ok (.primitive name) →
      ∃ (skipped : List Task) (task : Task) (later : List Task) (key : String)
          (cells : List Cell) (results : List Value),
        engine.queue.FirstReady engine.store skipped task later ∧ task.label = name ∧
        Target.resolve (primitives.provides engine.host) engine.program name =
          some (.primitive key) ∧
        task.inputs.map engine.store.get? = cells.map some ∧
        (∀ cell ∈ cells, cell.bound = true) ∧
        primitives.invoke engine.host key (cells.map (·.value)) = (.ok results, next.host) ∧
        (∀ log, (engine.rehost (engine.host, log)).step primitives.recorded =
          (.ok (.primitive name),
            next.rehost (next.host, log ++ [(key, cells.map (·.value))]))) ∧
        engine.store.Concludes task results next.store ∧
        next.queue = ⟨skipped ++ later⟩ ∧ engine.frame = none ∧ next.frame = none := by
  intro engine next name answer
  have kept := history_kept primitives program host requests (Nat.le_of_lt few)
  have tidy := history_tidy primitives program host requests (Nat.le_of_lt few)
  have stepped : engine.step primitives = (.ok (.primitive name), next) := Prod.ext answer rfl
  clear_value next
  obtain ⟨skipped, task, later, idle, chosen, dispatches⟩ :=
    primitive_dispatches (step_ok_iff.mp stepped)
  obtain ⟨inHand, ready⟩ := take_ready idle kept chosen
  cases dispatches with
  | function target advances => cases advances
  | @primitive key values results host store target read replied enough bound =>
    obtain ⟨cells, found, set, same⟩ :=
      Store.readAll_cells (Store.allBound_iff.mp ready) engine.policy
    cases same.symm.trans read
    refine ⟨skipped, task, later, key, cells, results, Queue.select_ready_iff.mp chosen, rfl,
      target, found, set, replied, fun log => ?_, ?_, rfl, idle, idle⟩
    · apply step_ok_iff.mpr
      have recorded : primitives.recorded.invoke (engine.host, log) key (cells.map (·.value)) =
          (.ok results, host, log ++ [(key, cells.map (·.value))]) := by
        simp only [Primitives.recorded, replied]
      exact .dispatch idle chosen (.primitive target read recorded enough bound)
    · apply Store.settled_concludes enough bound
      · intro id listed
        exact inHand.balanced.live id (by simp [listed])
      · intro id cell held
        have counted := inHand.balanced.exact id cell held
        simp only [List.count_append] at counted
        omega
      · exact tidy idle

/-- The function hands its cell to a primitive, once as input and twice as output, and then the
same way to another function. -/
private def sharedCellDemo : Program :=
  .ofFunctions
    [⟨"f", [.create, .assign 7, .dupl, .input, .dupl, .output, .output, .push "pair", .pushFunc,
      .push "g", .pushFunc]⟩, ⟨"g", []⟩] (by decide)

/-- The primitive gives three of six references back, and the second of its results counts. -/
theorem primitive_step_effect_shared :
    let primitives := Primitives.scripted [("pair", .results [3, 4])]
    let requests := .seed "f" :: List.replicate 12 Request.step
    let engine := (ofProgram sharedCellDemo ()).after primitives requests
    let next := (engine.step primitives).2
    requests.count .step < UInt32.size ∧ engine.store.get? 1 = some ⟨true, 7, 6⟩ ∧
      (engine.step primitives).1 = .ok (.primitive "pair") ∧
      next.store.get? 1 = some ⟨true, 4, 3⟩ ∧
      ∃ task results, task.label = "pair" ∧ engine.store.Concludes task results next.store := by
  have effect := primitive_step_effect (.scripted [("pair", .results [3, 4])]) sharedCellDemo ()
    (.seed "f" :: List.replicate 12 .step) (by decide)
  refine ⟨by decide, rfl, rfl, rfl, ?_⟩
  obtain ⟨-, task, -, -, -, results, -, label, -, -, -, -, -, concludes, -⟩ := effect "pair" rfl
  exact ⟨task, results, label, concludes⟩

end Engine

end Dataflow
