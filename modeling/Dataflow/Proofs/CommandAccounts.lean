import Dataflow.Proofs.EngineHistory
import Dataflow.Proofs.ReferenceLedger

/-! The books of a machine: who owns the references that the store counts, and
which ids the running frame can still name. The queue, the running task and the
part of the call that is not enqueued own one reference for each entry. The
operand stack owns none; its cells stay live because nothing is swept while a
frame runs. Every command keeps the books, and so does every command that
faults. -/
namespace Dataflow

/-- The cells of all pending tasks, one entry for each role. -/
def Queue.roles (queue : Queue) : List CellId := queue.tasks.flatMap Task.cells

/-- The cell that an operand is, if it is one. -/
def Operand.cell? : Operand → Option CellId
  | .cell id => some id
  | .literal _ => none

namespace Frame

/-- The roles that the frame owns references for. -/
def roles (frame : Frame) : List CellId := frame.task.cells ++ frame.call.unshared

/-- Every occurrence of an id in the frame. -/
def mentions (frame : Frame) : List CellId :=
  frame.task.cells ++ frame.call.task.cells ++ frame.stack.filterMap Operand.cell?

/-- All cells that the frame can name are live, and its call is sound and has
at most one cell for each of `calls` steps. -/
structure Held (calls : Nat) (store : Store) (frame : Frame) : Prop where
  live : ∀ id ∈ frame.mentions, store.contains id = true
  sound : frame.call.isSound = true
  short : frame.call.task.cells.length ≤ calls

end Frame

/-- The roles of the frame that is running, if there is one. -/
def rolesOf : Option Frame → List CellId
  | some frame => frame.roles
  | none => []

/-- The books after `calls` steps, of which `dropped` were lost. The bounds keep
every counter and every id within a word. -/
structure Accounts (calls : Nat) (dropped : List CellId) (store : Store) (queue : Queue)
    (frame : Option Frame) : Prop where
  balanced : store.Balanced (queue.roles ++ rolesOf frame ++ dropped)
  room : (queue.roles ++ rolesOf frame ++ dropped).length ≤ calls * calls
  ids : ∀ id, store.contains id = true → id.toNat ≤ calls
  held : ∀ running ∈ frame, running.Held calls store

@[simp] theorem Queue.roles_push (queue : Queue) (task : Task) :
    (queue.push task).roles = queue.roles ++ task.cells := by
  simp [roles, push, List.flatMap_append]

/-! ### The two parts of a call -/

namespace Call

variable {call : Call} {id : CellId}

theorem isSound_iff : call.isSound = true ↔
    call.sharedInputs.toNat ≤ call.task.inputs.length ∧
      call.sharedOutputs.toNat ≤ call.task.outputs.length := by
  simp [isSound]

/-- The shared and the unshared cells make up the call. -/
theorem cells_perm (call : Call) : call.task.cells.Perm (call.shared ++ call.unshared) := by
  refine List.perm_iff_count.mpr fun id => ?_
  have inputs : call.task.inputs.count id = (call.task.inputs.take call.sharedInputs.toNat).count id +
      (call.task.inputs.drop call.sharedInputs.toNat).count id := by
    rw [← List.count_append, List.take_append_drop]
  have outputs : call.task.outputs.count id =
      (call.task.outputs.take call.sharedOutputs.toNat).count id +
        (call.task.outputs.drop call.sharedOutputs.toNat).count id := by
    rw [← List.count_append, List.take_append_drop]
  simp only [Task.cells, shared, unshared, List.count_append]
  omega

theorem unshared_addInput (sound : call.isSound = true) (id : CellId) :
    (call.addInput id).unshared.Perm (id :: call.unshared) := by
  refine List.perm_iff_count.mpr fun other => ?_
  have within := (isSound_iff.mp sound).1
  simp only [unshared, addInput, List.drop_append_of_le_length within, List.count_append,
    List.count_cons, List.count_nil]
  omega

theorem unshared_addOutput (sound : call.isSound = true) (id : CellId) :
    (call.addOutput id).unshared.Perm (id :: call.unshared) := by
  refine List.perm_iff_count.mpr fun other => ?_
  have within := (isSound_iff.mp sound).2
  simp only [unshared, addOutput, List.drop_append_of_le_length within, List.count_append,
    List.count_cons, List.count_nil]
  omega

theorem isSound_addInput (sound : call.isSound = true) : (call.addInput id).isSound = true := by
  obtain ⟨inputs, outputs⟩ := isSound_iff.mp sound
  refine isSound_iff.mpr ⟨?_, outputs⟩
  simp only [addInput, List.length_append, List.length_singleton]
  omega

theorem isSound_addOutput (sound : call.isSound = true) : (call.addOutput id).isSound = true := by
  obtain ⟨inputs, outputs⟩ := isSound_iff.mp sound
  refine isSound_iff.mpr ⟨inputs, ?_⟩
  simp only [addOutput, List.length_append, List.length_singleton]
  omega

/-- A list never has fewer entries than its length, counted in words, says. -/
theorem isSound_issued (call : Call) (name : String) : (call.issued name).isSound = true := by
  refine isSound_iff.mpr ⟨?_, ?_⟩
  · exact Nat.mod_le _ _
  · exact Nat.mod_le _ _

/-- A call that fits into a word is shared as a whole once it is issued. -/
theorem issued_shares_all (name : String) (fits : call.task.cells.length < UInt64.size) :
    (call.issued name).isSound = true ∧ (call.issued name).unshared = [] := by
  rw [Task.cells, List.length_append] at fits
  have inputs : (UInt64.ofNat call.task.inputs.length).toNat = call.task.inputs.length :=
    UInt64.toNat_ofNat_of_lt' (by omega)
  have outputs : (UInt64.ofNat call.task.outputs.length).toNat = call.task.outputs.length :=
    UInt64.toNat_ofNat_of_lt' (by omega)
  exact ⟨isSound_issued call name, by simp [unshared, issued, inputs, outputs]⟩

end Call

/-! ### Moving the books -/

variable {calls : Nat} {dropped : List CellId} {store after : Store} {queue : Queue}
  {frame : Frame} {id : CellId}

theorem word_room (few : calls < UInt32.size) : calls * calls + calls + 1 < UInt64.size := by
  have square : calls * calls ≤ 4294967295 * 4294967295 :=
    Nat.mul_le_mul (Nat.le_of_lt_succ few) (Nat.le_of_lt_succ few)
  have below : calls < 4294967296 := few
  have size : UInt64.size = 18446744073709551616 := rfl
  omega

/-- There is a word for the next id. -/
theorem id_room {running : Option Frame} (accounts : Accounts calls dropped store queue running)
    (few : calls < UInt32.size) (id : CellId) (live : store.contains id = true) :
    id.toNat + 1 < UInt64.size := by
  have bound := accounts.ids id live
  have room := word_room few
  omega

/-- Every cell of a pending task is live. -/
theorem queue_live {running : Option Frame} (accounts : Accounts calls dropped store queue running)
    (listed : id ∈ queue.roles) : store.contains id = true := by
  apply accounts.balanced.live id
  simp [listed]

/-- One more step may add as many references as there were steps, and one. -/
theorem accounts_gain {running running' : Option Frame} {queue' : Queue}
    {dropped' : List CellId} (gained : List CellId)
    (accounts : Accounts calls dropped store queue running)
    (balanced : after.Balanced (gained ++ (queue.roles ++ rolesOf running ++ dropped)))
    (few : gained.length ≤ calls + 1)
    (moved : (gained ++ (queue.roles ++ rolesOf running ++ dropped)).Perm
      (queue'.roles ++ rolesOf running' ++ dropped'))
    (ids : ∀ id, after.contains id = true → id.toNat ≤ calls + 1)
    (held : ∀ frame ∈ running', frame.Held (calls + 1) after) :
    Accounts (calls + 1) dropped' after queue' running' where
  balanced := Store.balanced_perm balanced moved
  room := by
    have room := accounts.room
    have square : (calls + 1) * (calls + 1) = calls * calls + calls + (calls + 1) := by
      rw [Nat.succ_mul, Nat.mul_succ]
    rw [← moved.length_eq, List.length_append, square]
    omega
  ids := ids
  held := held

theorem Frame.held_mono (held : frame.Held calls store)
    (kept : ∀ id, store.contains id = true → after.contains id = true) :
    frame.Held (calls + 1) after :=
  ⟨fun id member => kept id (held.live id member), held.sound,
    Nat.le_trans held.short (Nat.le_succ calls)⟩

theorem accounts_mono {running : Option Frame}
    (accounts : Accounts calls dropped store queue running) :
    Accounts (calls + 1) dropped store queue running :=
  accounts_gain [] accounts accounts.balanced (by simp) (.refl _)
    (fun id live => Nat.le_succ_of_le (accounts.ids id live))
    (fun frame member => Frame.held_mono (accounts.held frame member) fun _ live => live)

/-- The stack may hold any cells that the frame could name before. -/
theorem accounts_stack {stack : List Operand}
    (accounts : Accounts calls dropped store queue (some frame))
    (named : ∀ id, .cell id ∈ stack → id ∈ frame.mentions) :
    Accounts calls dropped store queue (some { frame with stack := stack }) where
  balanced := accounts.balanced
  room := accounts.room
  ids := accounts.ids
  held := by
    rintro running ⟨⟩
    have held := accounts.held frame rfl
    refine ⟨fun id member => ?_, held.sound, held.short⟩
    rcases List.mem_append.mp member with listed | onStack
    · exact held.live id (List.mem_append.mpr (.inl listed))
    · obtain ⟨operand, inside, shown⟩ := List.mem_filterMap.mp onStack
      cases operand with
      | literal word => cases shown
      | cell other =>
        cases shown
        exact held.live id (named id inside)

/-- Any change of the store that keeps balance and ids keeps the books. -/
theorem accounts_store {running : Option Frame}
    (accounts : Accounts calls dropped store queue running)
    (balanced : after.Balanced (queue.roles ++ rolesOf running ++ dropped))
    (same : store.SameIds after) : Accounts calls dropped after queue running where
  balanced := balanced
  room := accounts.room
  ids id live := accounts.ids id ((same id).symm.trans live)
  held frame member := by
    have held := accounts.held frame member
    exact ⟨fun id named => (same id).trans (held.live id named), held.sound, held.short⟩

theorem Frame.stack_mentioned {id : CellId} (inside : .cell id ∈ frame.stack) :
    id ∈ frame.mentions :=
  List.mem_append.mpr (.inr (List.mem_filterMap.mpr ⟨.cell id, inside, rfl⟩))

theorem Frame.cellAt_mentioned {cells : List CellId} {index : UInt64} {id : CellId}
    (within : ∀ id ∈ cells, id ∈ frame.task.cells) (found : cellAt cells index = .ok id) :
    id ∈ frame.mentions := by
  unfold cellAt at found
  split at found
  · rename_i held
    cases found
    exact List.mem_append.mpr (.inl (List.mem_append.mpr
      (.inl (within id (List.mem_of_getElem? held)))))
  · cases found

theorem accounts_push {operand : Operand}
    (accounts : Accounts calls dropped store queue (some frame))
    (named : ∀ id, operand = .cell id → id ∈ frame.mentions) :
    Accounts calls dropped store queue (some (frame.push operand)) := by
  refine accounts_stack accounts fun id member => ?_
  rcases List.mem_cons.mp member with here | below
  · exact named id here.symm
  · exact Frame.stack_mentioned below

theorem accounts_pop {top : Operand} {rest : List Operand}
    (accounts : Accounts calls dropped store queue (some frame))
    (stack : frame.stack = top :: rest) :
    Accounts calls dropped store queue (some { frame with stack := rest }) :=
  accounts_stack accounts fun id member =>
    Frame.stack_mentioned (by rw [stack]; exact List.mem_cons_of_mem _ member)

/-- A fresh cell is owed nothing; only the stack names it. -/
theorem accounts_create (accounts : Accounts calls dropped store queue (some frame))
    (few : calls < UInt32.size) :
    Accounts (calls + 1) dropped store.allocate queue (some (frame.push (.cell store.freshId))) := by
  have fits := id_room accounts few
  have kept : ∀ id, store.contains id = true → store.allocate.contains id = true := by
    intro id live
    obtain ⟨cell, found⟩ := Store.contains_iff.mp live
    have different : id ≠ store.freshId :=
      fun same => UInt64.lt_irrefl _ (same ▸ Store.lt_freshId fits live)
    exact Store.contains_of_get? (by rw [Store.get?_allocate, if_neg different]; exact found)
  refine accounts_gain [] accounts
    (Store.balanced_allocate accounts.balanced (Store.freshId_not_live fits)) (by simp) (.refl _)
    ?_ ?_
  · intro id live
    obtain ⟨cell, found⟩ := Store.contains_iff.mp live
    rw [Store.get?_allocate] at found
    split at found
    · rename_i same
      rw [same]
      exact Store.freshId_le accounts.ids
    · exact Nat.le_succ_of_le (accounts.ids id (Store.contains_of_get? found))
  · rintro running ⟨⟩
    have held := accounts.held frame rfl
    refine ⟨fun id member => ?_, held.sound, Nat.le_succ_of_le held.short⟩
    have options : id = store.freshId ∨ id ∈ frame.mentions := by
      simp only [Frame.mentions, Frame.push, List.filterMap_cons, Operand.cell?,
        List.mem_append, List.mem_cons] at member ⊢
      grind
    rcases options with rfl | named
    · exact Store.contains_of_get? (by rw [Store.get?_allocate, if_pos rfl])
    · exact kept id (held.live id named)

/-- Starting a new call drops the roles that the old one has not handed on. -/
theorem accounts_reset (accounts : Accounts calls dropped store queue (some frame)) :
    Accounts (calls + 1) (dropped ++ frame.call.unshared) store queue
      (some { frame with call := .empty }) := by
  refine accounts_gain [] accounts accounts.balanced (by simp) ?_
    (fun id live => Nat.le_succ_of_le (accounts.ids id live)) ?_
  · refine List.perm_iff_count.mpr fun id => ?_
    simp only [List.nil_append, rolesOf, Frame.roles, List.count_append,
      show Call.empty.unshared = [] from rfl, List.count_nil]
    omega
  · rintro running ⟨⟩
    have held := accounts.held frame rfl
    refine ⟨fun id member => held.live id ?_, rfl, by simp [Call.empty, Task.blank, Task.cells]⟩
    simp only [Frame.mentions, Call.empty, Task.blank, Task.cells, List.mem_append] at member ⊢
    grind

/-- A cell that joins the call is counted once more. -/
theorem accounts_join {call : Call} (accounts : Accounts calls dropped store queue (some frame))
    (few : calls < UInt32.size) (live : store.contains id = true)
    (grown : call.unshared.Perm (id :: frame.call.unshared))
    (listed : call.task.cells.Perm (id :: frame.call.task.cells)) (sound : call.isSound = true) :
    ∃ after, store.incref id = .ok after ∧
      Accounts (calls + 1) dropped after queue (some { frame with call := call }) := by
  have held := accounts.held frame rfl
  have room := word_room few
  have owed := accounts.room
  obtain ⟨after, done, balanced, same⟩ :=
    Store.balanced_incref accounts.balanced live (by omega)
  refine ⟨after, done, accounts_gain [id] accounts balanced (by simp) ?_ ?_ ?_⟩
  · refine List.perm_iff_count.mpr fun other => ?_
    have counted := grown.count_eq other
    simp only [rolesOf, Frame.roles, List.count_append, List.count_cons, List.count_nil]
      at counted ⊢
    omega
  · intro other kept
    exact Nat.le_succ_of_le (accounts.ids other ((same other).symm.trans kept))
  · rintro running ⟨⟩
    refine ⟨fun other member => (same other).trans ?_, sound, ?_⟩
    · have members := fun other => listed.mem_iff (a := other)
      have options : other = id ∨ other ∈ frame.mentions := by
        simp only [Frame.mentions, List.mem_append, members, List.mem_cons] at member ⊢
        grind
      rcases options with rfl | named
      · exact live
      · exact held.live other named
    · have short := held.short
      rw [listed.length_eq, List.length_cons]
      omega

/-- The enqueued copy owns the unshared cells of the call from now on, and one
new reference to each shared one. -/
theorem accounts_issue (accounts : Accounts calls dropped store queue (some frame))
    (few : calls < UInt32.size) (name : String) :
    ∃ after, store.increfAll frame.call.shared = .ok after ∧
      Accounts (calls + 1) dropped after (queue.push (frame.call.issued name).task)
        (some { frame with call := frame.call.issued name }) := by
  have held := accounts.held frame rfl
  have room := word_room few
  have owed := accounts.room
  have short := held.short
  have parts := frame.call.cells_perm
  have lengths : frame.call.task.cells.length = frame.call.shared.length +
      frame.call.unshared.length := by
    rw [parts.length_eq, List.length_append]
  have listed : ∀ id ∈ frame.call.task.cells, store.contains id = true := fun id member =>
    held.live id (List.mem_append.mpr (.inl (List.mem_append.mpr (.inr member))))
  obtain ⟨after, done, balanced, same⟩ := Store.balanced_increfAll frame.call.shared
    accounts.balanced (fun id member => listed id (parts.mem_iff.mpr
      (List.mem_append.mpr (.inl member)))) (by omega)
  obtain ⟨sound, handed⟩ := Call.issued_shares_all name (show
    frame.call.task.cells.length < UInt64.size by omega)
  refine ⟨after, done, accounts_gain frame.call.shared accounts balanced (by omega) ?_ ?_ ?_⟩
  · refine List.perm_iff_count.mpr fun id => ?_
    have counted := parts.count_eq id
    have copied : (frame.call.issued name).task.cells = frame.call.task.cells := rfl
    simp only [rolesOf, Frame.roles, Queue.roles_push, handed, copied, List.count_append,
      List.count_nil] at counted ⊢
    omega
  · intro id kept
    exact Nat.le_succ_of_le (accounts.ids id ((same id).symm.trans kept))
  · rintro running ⟨⟩
    exact ⟨fun id member => (same id).trans (held.live id member), sound,
      Nat.le_succ_of_le short⟩

end Dataflow
