import Dataflow.Proofs.IdleStore
import Mathlib.Data.List.Nodup
import Mathlib.Logic.Function.Basic

/-! A store that holds the cells of two others, each under ids of its own. The order in
which two runs allocate decides which ids their cells get in a common store, so the two
parts are found in it by a renaming each. An operation on a cell of one part has the
same effect in the common store, and the other part is left alone. Only a sweep reaches
both parts, and it spares the other part if all its cells are referenced. -/
namespace Dataflow.Store

/-- Every cell of `part` is found in `whole`, under another id. -/
structure Embeds (f : CellId → CellId) (part whole : Store) : Prop where
  cell : ∀ id cell, part.get? id = some cell → whole.get? (f id) = some cell
  injective : ∀ id other, part.contains id = true → part.contains other = true →
    f id = f other → id = other

/-- Every cell of `whole` comes from exactly one of two stores. -/
structure Union (f g : CellId → CellId) (left right whole : Store) : Prop where
  ofLeft : left.Embeds f whole
  ofRight : right.Embeds g whole
  apart : ∀ id other, left.contains id = true → right.contains other = true → f id ≠ g other
  covers : ∀ id, whole.contains id = true →
    (∃ old, left.contains old = true ∧ f old = id) ∨ ∃ old, right.contains old = true ∧ g old = id

variable {f g : CellId → CellId} {part left right whole after : Store} {id : CellId}
  {ids : List CellId} {policy : ReadPolicy}

/-! ### Looking at one part -/

theorem embeds_live (embeds : part.Embeds f whole) (live : part.contains id = true) :
    whole.contains (f id) = true := by
  obtain ⟨cell, held⟩ := contains_iff.mp live
  exact contains_of_get? (embeds.cell id cell held)

theorem embeds_fetch (embeds : part.Embeds f whole) (live : part.contains id = true) :
    whole.fetch (f id) = part.fetch id := by
  obtain ⟨cell, held⟩ := contains_iff.mp live
  simp [fetch, held, embeds.cell id cell held]

theorem embeds_allBound (embeds : part.Embeds f whole)
    (live : ∀ id ∈ ids, part.contains id = true) :
    whole.allBound (ids.map f) = part.allBound ids := by
  induction ids with
  | nil => rfl
  | cons id rest ih =>
    have first : whole.isBound (f id) = part.isBound id := by
      rw [isBound, isBound, embeds_fetch embeds (live id List.mem_cons_self)]
    have later := ih fun other member => live other (List.mem_cons_of_mem _ member)
    rw [List.map_cons, allBound, allBound, first, later]

theorem embeds_read (embeds : part.Embeds f whole) {value : Value}
    (read : part.read policy id = .ok value) : whole.read policy (f id) = .ok value := by
  cases held : part.get? id with
  | none => simp [Store.read, fetch, held] at read
  | some cell =>
    have moved := embeds.cell id cell held
    simp only [Store.read, fetch, held] at read
    simp only [Store.read, fetch, moved]
    -- The two readings differ only in the id that a fault names.
    by_cases bound : cell.bound = true
    · simpa [bound] using read
    · cases policy with
      | lenient => simpa [bound] using read
      | strict => simp [bound] at read

theorem embeds_readAll (embeds : part.Embeds f whole) {values : List Value}
    (read : part.readAll policy ids = .ok values) :
    whole.readAll policy (ids.map f) = .ok values := by
  induction ids generalizing values with
  | nil => exact read
  | cons id rest ih =>
    cases first : part.read policy id with
    | error fault => simp [readAll, first, Bind.bind, Except.bind] at read
    | ok value =>
      cases later : part.readAll policy rest with
      | error fault =>
        rw [readAll] at later
        simp [readAll, first, later, Bind.bind, Except.bind] at read
      | ok others =>
        have moved := ih later
        rw [readAll] at later moved
        rw [readAll, List.map_cons, List.mapM_cons, embeds_read embeds first, moved]
        rw [readAll, List.mapM_cons, first, later] at read
        exact read

/-! ### Changing one part -/

theorem union_swap (union : Union f g left right whole) : Union g f right left whole where
  ofLeft := union.ofRight
  ofRight := union.ofLeft
  apart id other live held := (union.apart other id held live).symm
  covers id live := (union.covers id live).symm

theorem union_empty : Union f g .empty .empty .empty where
  ofLeft := ⟨fun id cell held => by simp [empty, get?] at held, fun id other live => by cases live⟩
  ofRight := ⟨fun id cell held => by simp [empty, get?] at held, fun id other live => by cases live⟩
  apart id other live := by cases live
  covers id live := by cases live

/-- Corresponding changes of the cells of the left part, in it and in the whole. -/
theorem union_map {changed : Store} {change effect : CellId → Cell → Cell}
    (union : Union f g left right whole)
    (part : ∀ id, after.get? id = (left.get? id).map (change id))
    (all : ∀ id, changed.get? id = (whole.get? id).map (effect id))
    (alike : ∀ id, left.contains id = true → effect (f id) = change id)
    (spared : ∀ id cell, right.contains id = true → effect (g id) cell = cell) :
    Union f g after right changed := by
  have leftIds : left.SameIds after := same_ids_of_map part
  have wholeIds : whole.SameIds changed := same_ids_of_map all
  refine ⟨⟨fun id cell held => ?_, fun id other live held => ?_⟩,
    ⟨fun id cell held => ?_, union.ofRight.injective⟩, fun id other live => ?_, fun id live => ?_⟩
  · rw [part id] at held
    obtain ⟨prior, before, rfl⟩ := Option.map_eq_some_iff.mp held
    rw [all, union.ofLeft.cell id prior before, alike id (contains_of_get? before)]
    rfl
  · rw [leftIds] at live held
    exact union.ofLeft.injective id other live held
  · rw [all, union.ofRight.cell id cell held, Option.map_some,
      spared id cell (contains_of_get? held)]
  · rw [leftIds] at live
    exact union.apart id other live
  · rw [wholeIds] at live
    simp only [leftIds _]
    exact union.covers id live

/-- A change of one cell of the left part. -/
theorem union_update {change : Cell → Cell} (union : Union f g left right whole)
    (updated : left.update id change = .ok after) :
    ∃ changed, whole.update (f id) change = .ok changed ∧ Union f g after right changed := by
  obtain ⟨live, part⟩ := update_ok updated
  obtain ⟨changed, done, all⟩ := update_live (embeds_live union.ofLeft live) change
  refine ⟨changed, done, union_map union part all (fun other held => ?_) fun other cell held => ?_⟩
  · have same : f other = f id ↔ other = id :=
      ⟨union.ofLeft.injective other id held live, congrArg f⟩
    simp only [same]
  · exact if_neg (union.apart id other live held).symm

theorem union_applyAll {change : Store → α → Except Fault Store} {move : α → α} {items : List α}
    (union : Union f g left right whole) (applied : left.applyAll change items = .ok after)
    (single : ∀ left whole after item, Union f g left right whole →
      change left item = .ok after →
      ∃ changed, change whole (move item) = .ok changed ∧ Union f g after right changed) :
    ∃ changed, whole.applyAll change (items.map move) = .ok changed ∧
      Union f g after right changed := by
  induction items generalizing left whole with
  | nil =>
    cases applied
    exact ⟨whole, rfl, union⟩
  | cons item rest ih =>
    rw [applyAll] at applied
    cases first : change left item with
    | error fault => simp [first] at applied
    | ok middle =>
      simp only [first] at applied
      obtain ⟨moved, done, union⟩ := single left whole middle item union first
      obtain ⟨changed, later, union⟩ := ih union applied
      exact ⟨changed, by simp only [List.map_cons, applyAll, done, later], union⟩

theorem union_increfAll (union : Union f g left right whole)
    (raised : left.increfAll ids = .ok after) :
    ∃ changed, whole.increfAll (ids.map f) = .ok changed ∧ Union f g after right changed :=
  union_applyAll union raised fun _ _ _ _ union done => union_update union done

theorem union_bindAll {targets : List CellId} {values : List Value}
    (union : Union f g left right whole)
    (bound : left.bindAll (targets.zip values) = .ok after) :
    ∃ changed, whole.bindAll ((targets.map f).zip values) = .ok changed ∧
      Union f g after right changed := by
  rw [List.zip_map_left]
  exact union_applyAll union bound fun _ _ _ _ union done => union_update union done

theorem union_release (union : Union f g left right whole)
    (live : ∀ id ∈ ids, left.contains id = true) :
    Union f g (left.release ids) right (whole.release (ids.map f)) := by
  induction ids generalizing left whole with
  | nil => exact union
  | cons id rest ih =>
    obtain ⟨after, done, mapped⟩ := decref_live (live id List.mem_cons_self)
    obtain ⟨changed, moved, union⟩ := union_update union done
    have later : ∀ other ∈ rest, after.contains other = true := by
      intro other member
      rw [same_ids_of_map mapped]
      exact live other (List.mem_cons_of_mem _ member)
    have lowered : whole.decref (f id) = .ok changed := moved
    simp only [List.map_cons, release, done, lowered]
    exact ih union later

/-- A new cell of the left part gets the id that is next in the whole. -/
theorem union_allocate (union : Union f g left right whole)
    (new : left.contains left.freshId = false) (free : whole.contains whole.freshId = false) :
    Union (Function.update f left.freshId whole.freshId) g left.allocate right
      whole.allocate := by
  have atOld : ∀ id, left.contains id = true →
      Function.update f left.freshId whole.freshId id = f id := by
    intro id live
    refine Function.update_of_ne (fun same => ?_) _ _
    simp [same, new] at live
  have taken : ∀ id, whole.contains id = true → id ≠ whole.freshId := by
    rintro id live rfl
    simp [free] at live
  have options : ∀ id, left.allocate.contains id = true →
      id = left.freshId ∨ left.contains id = true := by
    intro id live
    obtain ⟨cell, held⟩ := contains_iff.mp live
    rw [get?_allocate] at held
    split at held
    · rename_i same
      exact .inl same
    · exact .inr (contains_of_get? held)
  have placed : ∀ {id cell}, whole.get? id = some cell → whole.allocate.get? id = some cell := by
    intro id cell held
    rw [get?_allocate, if_neg (taken id (contains_of_get? held)), held]
  refine ⟨⟨fun id cell held => ?_, fun id other live held same => ?_⟩,
    ⟨fun id cell held => placed (union.ofRight.cell id cell held), union.ofRight.injective⟩,
    fun id other live held => ?_, fun id live => ?_⟩
  · rw [get?_allocate] at held
    split at held
    · rename_i fresh
      rw [fresh, Function.update_self, get?_allocate, if_pos rfl]
      exact held
    · rw [atOld id (contains_of_get? held)]
      exact placed (union.ofLeft.cell id cell held)
  · rcases options id live with rfl | live <;> rcases options other held with rfl | held
    · rfl
    · rw [Function.update_self, atOld other held] at same
      exact absurd same.symm (taken _ (embeds_live union.ofLeft held))
    · rw [Function.update_self, atOld id live] at same
      exact absurd same (taken _ (embeds_live union.ofLeft live))
    · rw [atOld id live, atOld other held] at same
      exact union.ofLeft.injective id other live held same
  · rcases options id live with rfl | live
    · rw [Function.update_self]
      exact (taken _ (embeds_live union.ofRight held)).symm
    · rw [atOld id live]
      exact union.apart id other live held
  · obtain ⟨cell, held⟩ := contains_iff.mp live
    rw [get?_allocate] at held
    split at held
    · rename_i fresh
      have here : left.allocate.get? left.freshId = some .fresh := by
        rw [get?_allocate, if_pos rfl]
      exact .inl ⟨left.freshId, contains_of_get? here, by rw [Function.update_self, fresh]⟩
    · rcases union.covers id (contains_of_get? held) with ⟨old, here, rfl⟩ | found
      · obtain ⟨prior, before⟩ := contains_iff.mp here
        have kept : left.allocate.get? old = some prior := by
          rw [get?_allocate, if_neg, before]
          rintro rfl
          simp [new] at here
        exact .inl ⟨old, contains_of_get? kept, atOld old here⟩
      · exact .inr found

/-- A sweep spares the right part if all its cells are referenced. -/
theorem union_collect (union : Union f g left right whole) (referenced : right.Referenced) :
    Union f g left.collect right whole.collect := by
  have survives : ∀ id, left.collect.contains id = true → left.contains id = true := by
    intro id live
    obtain ⟨cell, held⟩ := contains_iff.mp live
    rw [get?_collect, Option.filter_eq_some_iff] at held
    exact contains_of_get? held.1
  refine ⟨⟨fun id cell held => ?_, fun id other live held => ?_⟩,
    ⟨fun id cell held => ?_, union.ofRight.injective⟩, fun id other live => ?_, fun id live => ?_⟩
  · rw [get?_collect, Option.filter_eq_some_iff] at held ⊢
    exact ⟨union.ofLeft.cell id cell held.1, held.2⟩
  · exact union.ofLeft.injective id other (survives id live) (survives other held)
  · rw [get?_collect, Option.filter_eq_some_iff]
    exact ⟨union.ofRight.cell id cell held, by simpa using referenced id cell held⟩
  · exact union.apart id other (survives id live)
  · obtain ⟨cell, held⟩ := contains_iff.mp live
    rw [get?_collect, Option.filter_eq_some_iff] at held
    rcases union.covers id (contains_of_get? held.1) with ⟨old, here, rfl⟩ | found
    · obtain ⟨prior, before⟩ := contains_iff.mp here
      cases (union.ofLeft.cell old prior before).symm.trans held.1
      have kept : left.collect.get? old = some cell := by
        rw [get?_collect, Option.filter_eq_some_iff]
        exact ⟨before, held.2⟩
      exact .inl ⟨old, contains_of_get? kept, rfl⟩
    · exact .inr found

private theorem mem_ids {store : Store} : id ∈ store.cells.ids ↔ store.contains id = true :=
  CellMap.mem_ids.trans contains_iff.symm

private theorem ids_nodup (store : Store) : store.cells.ids.Nodup :=
  store.cells.ids_ascending.imp UInt64.ne_of_lt

private theorem embeds_ids_nodup (embeds : part.Embeds f whole) : (part.cells.ids.map f).Nodup := by
  refine List.Nodup.map_on (fun id member other known same => ?_) part.ids_nodup
  exact embeds.injective id other (mem_ids.mp member) (mem_ids.mp known) same

theorem union_size (union : Union f g left right whole) :
    whole.size = left.size + right.size := by
  have listed : (left.cells.ids.map f ++ right.cells.ids.map g).Perm whole.cells.ids := by
    refine (List.perm_ext_iff_of_nodup ?_ whole.ids_nodup).mpr fun id => ?_
    · refine List.nodup_append.mpr ⟨embeds_ids_nodup union.ofLeft,
        embeds_ids_nodup union.ofRight, fun id first other second => ?_⟩
      obtain ⟨old, member, rfl⟩ := List.mem_map.mp first
      obtain ⟨older, known, rfl⟩ := List.mem_map.mp second
      exact union.apart old older (mem_ids.mp member) (mem_ids.mp known)
    · simp only [List.mem_append, List.mem_map, mem_ids]
      constructor
      · rintro (⟨old, live, rfl⟩ | ⟨old, live, rfl⟩)
        · exact embeds_live union.ofLeft live
        · exact embeds_live union.ofRight live
      · exact union.covers id
  simpa [CellMap.ids, size, CellMap.size] using listed.length_eq.symm

end Dataflow.Store
