import Mathlib.Data.Finset.Card
import Dataflow.Proofs.BlockGrammar

/-! The function table under any sequence of inserts. A table is built by offering it functions
one after the other. Each insert that is accepted changes the list and the index, and the two
agree again after it; one that is refused hands the function back and leaves no trace. So no
lookup leads outside of the list, and what a table holds is said in terms of the functions
offered alone: of each name the first function, at the place that the table had reached when
it came. -/
namespace Dataflow

namespace FunctionTable

/-- Offer a function to a table. One that is handed back leaves the table as it was. -/
def offer (table : FunctionTable) (function : Function) : FunctionTable :=
  match table.insert function with
  | .ok next => next
  | .error _ => table

/-- The table after the given functions have been offered to an empty one, in order. -/
def ofInserts (given : List Function) : FunctionTable :=
  given.foldl offer empty

/-- The functions whose names do not come up before them, in order. -/
def firstNamed (given : List Function) : List Function :=
  (given.zipIdx.filter fun entry => entry.1.name ∉ (given.take entry.2).map (·.name)).map (·.1)

variable {table : FunctionTable} {function : Function} {given before : List Function}

/-! ### One insert -/

theorem insert_taken (agrees : table.Agrees)
    (taken : function.name ∈ table.functions.map (·.name)) :
    table.insert function = .error function :=
  if_pos (agrees.contains_iff.mpr taken)

theorem offer_taken (agrees : table.Agrees)
    (taken : function.name ∈ table.functions.map (·.name)) : table.offer function = table := by
  rw [offer, insert_taken agrees taken]

theorem offer_new (agrees : table.Agrees)
    (new : function.name ∉ table.functions.map (·.name)) :
    table.insert function = .ok (table.offer function) := by
  have absent : ¬ table.contains function.name = true := mt agrees.contains_iff.mp new
  have accepted : table.insert function = .ok _ := if_neg absent
  rw [offer, accepted]

/-- A function that is offered may be accepted or not; list and index agree in both cases. -/
theorem offer_agrees (agrees : table.Agrees) (function : Function) :
    (table.offer function).Agrees := by
  unfold offer
  split
  · rename_i next inserted
    exact agrees.insert inserted
  · exact agrees

theorem offer_functions (agrees : table.Agrees) (function : Function) :
    (table.offer function).functions =
      if function.name ∈ table.functions.map (·.name) then table.functions
      else table.functions ++ [function] := by
  split
  · rename_i taken
    rw [offer_taken agrees taken]
  · rename_i new
    exact (insert_ok (offer_new agrees new)).2.1

/-! ### A sequence of inserts -/

theorem foldl_offer_agrees (agrees : table.Agrees) (later : List Function) :
    (later.foldl offer table).Agrees := by
  induction later generalizing table with
  | nil => exact agrees
  | cons function rest ih => exact ih (offer_agrees agrees function)

/-- What stands in a table keeps its place, whatever is offered later. -/
theorem foldl_offer_functions (agrees : table.Agrees) (later : List Function) :
    ∃ added, (later.foldl offer table).functions = table.functions ++ added := by
  induction later generalizing table with
  | nil => exact ⟨[], (List.append_nil _).symm⟩
  | cons function rest ih =>
    obtain ⟨added, grown⟩ := ih (offer_agrees agrees function)
    rw [List.foldl_cons, grown, offer_functions agrees]
    split
    · exact ⟨added, rfl⟩
    · exact ⟨function :: added, by rw [List.append_assoc, List.singleton_append]⟩

theorem ofInserts_agrees (given : List Function) : (ofInserts given).Agrees :=
  foldl_offer_agrees empty_agrees given

theorem ofInserts_concat (before : List Function) (function : Function) :
    ofInserts (before ++ [function]) = (ofInserts before).offer function := by
  rw [ofInserts, List.foldl_concat, ofInserts]

/-- Every name that was offered is in the table, and no other. -/
theorem mem_names_ofInserts (given : List Function) (name : String) :
    name ∈ (ofInserts given).functions.map (·.name) ↔ name ∈ given.map (·.name) := by
  induction given using List.reverseRecOn with
  | nil => exact Iff.rfl
  | append_singleton before function ih =>
    rw [ofInserts_concat, offer_functions (ofInserts_agrees before), List.map_append,
      List.mem_append, ← ih]
    split
    · rename_i taken
      refine (or_iff_left_of_imp ?_).symm
      intro last
      rwa [List.mem_singleton.mp last]
    · rw [List.map_append, List.mem_append]

theorem firstNamed_concat (before : List Function) (function : Function) :
    firstNamed (before ++ [function]) =
      firstNamed before ++
        if function.name ∈ before.map (·.name) then [] else [function] := by
  have earlier : ∀ entry ∈ before.zipIdx,
      (before ++ [function]).take entry.2 = before.take entry.2 := by
    intro entry member
    have inside := List.snd_lt_of_mem_zipIdx member
    exact List.take_append_of_le_length (by omega)
  rw [firstNamed, List.zipIdx_append, List.filter_append, List.map_append, firstNamed]
  congr 1
  · congr 1
    apply List.filter_congr
    intro entry member
    rw [earlier entry member]
  · by_cases taken : function.name ∈ before.map (·.name)
    · simp [taken]
    · simp [taken]

/-- A table holds the functions whose names were new when they came. -/
theorem functions_ofInserts (given : List Function) :
    (ofInserts given).functions = firstNamed given := by
  induction given using List.reverseRecOn with
  | nil => rfl
  | append_singleton before function ih =>
    rw [ofInserts_concat, offer_functions (ofInserts_agrees before), firstNamed_concat, ← ih]
    by_cases taken : function.name ∈ before.map (·.name)
    · rw [if_pos taken, if_pos ((mem_names_ofInserts before _).mpr taken), List.append_nil]
    · rw [if_neg taken, if_neg (mt (mem_names_ofInserts before _).mp taken)]

/-- Leaving out the functions that come too late does not change what a search finds. -/
theorem find?_firstNamed (given : List Function) (name : String) :
    (firstNamed given).find? (·.name == name) = given.find? (·.name == name) := by
  induction given using List.reverseRecOn with
  | nil => rfl
  | append_singleton before function ih =>
    rw [firstNamed_concat, List.find?_append, List.find?_append, ih]
    by_cases taken : function.name ∈ before.map (·.name)
    · rw [if_pos taken]
      by_cases same : function.name = name
      · subst same
        -- The name has come up before, so the search ends before the last function.
        obtain ⟨first, member, named⟩ := List.mem_map.mp taken
        have found : (before.find? (·.name == function.name)).isSome = true :=
          List.find?_isSome.mpr ⟨first, member, by simpa using named⟩
        rw [Option.or_of_isSome found, Option.or_of_isSome found]
      · rw [List.find?_cons_of_neg (by simpa using same)]
    · rw [if_neg taken]

/-- The way through the index ends where a search through the list does. -/
theorem Agrees.get_eq_find? (agrees : table.Agrees) (name : String) :
    table.get name = .ok (table.functions.find? (·.name == name)) := by
  cases first : table.functions.find? (·.name == name) with
  | some function =>
    apply agrees.get_ok_iff.mpr
    exact ⟨List.mem_of_find?_eq_some first, by simpa using List.find?_some first⟩
  | none =>
    cases found : table.get name with
    | error place => exact absurd found (agrees.get_ne_error name place)
    | ok answer =>
      cases answer with
      | none => rfl
      | some function =>
        obtain ⟨member, named⟩ := agrees.get_ok_iff.mp found
        exact absurd named (by simpa using List.find?_eq_none.mp first function member)

/-- A name leads to the first function that was offered under it. -/
theorem get_ofInserts (given : List Function) (name : String) :
    (ofInserts given).get name = .ok (given.find? (·.name == name)) := by
  rw [(ofInserts_agrees given).get_eq_find?, functions_ofInserts, find?_firstNamed]

theorem contains_ofInserts (given : List Function) (name : String) :
    (ofInserts given).contains name = true ↔ ∃ function ∈ given, function.name = name := by
  rw [(ofInserts_agrees given).contains_iff, mem_names_ofInserts, List.mem_map]

/-- The names of a table are distinct and are those offered, so it has as many functions. -/
theorem size_ofInserts (given : List Function) :
    (ofInserts given).size = (given.map (·.name)).toFinset.card := by
  have same : (given.map (·.name)).toFinset =
      ((ofInserts given).functions.map (·.name)).toFinset := by
    ext name
    rw [List.mem_toFinset, List.mem_toFinset, mem_names_ofInserts]
  rw [same, List.toFinset_card_of_nodup (ofInserts_agrees given).distinct, List.length_map]
  rfl

/-- A new function takes the place that the table had reached and keeps it, in the list and in
the index. -/
theorem place_ofInserts (new : function.name ∉ before.map (·.name)) (after : List Function) :
    (ofInserts (before ++ function :: after)).functions[(ofInserts before).size]? =
        some function ∧
      (ofInserts (before ++ function :: after)).index function.name =
        some (ofInserts before).size := by
  have agrees := ofInserts_agrees before
  have grown := (insert_ok (offer_new agrees (mt (mem_names_ofInserts before _).mp new))).2.1
  obtain ⟨added, kept⟩ := foldl_offer_functions (offer_agrees agrees function) after
  have reached : ofInserts (before ++ function :: after) =
      after.foldl offer ((ofInserts before).offer function) := by
    rw [ofInserts, List.foldl_append, List.foldl_cons, ofInserts]
  have stands : (ofInserts (before ++ function :: after)).functions[(ofInserts before).size]? =
      some function := by
    rw [reached, kept, grown, List.append_assoc, List.singleton_append, size,
      List.getElem?_append_right (Nat.le_refl _), Nat.sub_self]
    rfl
  exact ⟨stands, (ofInserts_agrees _ _ _).mpr ⟨function, stands, rfl⟩⟩

end FunctionTable

/-! ### Programs -/

namespace Program

def offer (program : Program) (function : Function) : Program :=
  match program.insert function with
  | .ok next => next
  | .error _ => program

/-- The program after the given functions have been offered to an empty one, in order. -/
def ofInserts (given : List Function) : Program :=
  given.foldl offer empty

theorem offer_table (program : Program) (function : Function) :
    (program.offer function).toFunctionTable = program.toFunctionTable.offer function := by
  rw [offer, FunctionTable.offer, ← program.insert_table]
  cases program.insert function <;> rfl

theorem ofInserts_table (given : List Function) :
    (ofInserts given).toFunctionTable = FunctionTable.ofInserts given := by
  have each : ∀ program function,
      program.toFunctionTable.offer function = (offer program function).toFunctionTable :=
    fun program function => (offer_table program function).symm
  exact (List.foldl_hom toFunctionTable each).symm

end Program

namespace FunctionTable

/-- The list of a table and its index agree after any sequence of inserts: each name leads to a
place in the list, and to the one where its function stands. The list has the functions whose
names were new, in order; a name leads to the first function offered under it, and to none if
there is none; and there are as many functions as names. All this is so for a program that is
built by the same inserts. At every point of the sequence, a function with a new name is
accepted and stands at the place that the table had reached, also in the end. A function whose
name is taken is handed back, and nothing that can be asked of the table changes. -/
theorem table_keeps_first (given : List Function) :
    let table := ofInserts given
    table.Agrees ∧
    table.functions = firstNamed given ∧
    (∀ name, table.get name = .ok (given.find? (·.name == name)) ∧
      (table.contains name = true ↔ ∃ function ∈ given, function.name = name)) ∧
    table.size = (given.map (·.name)).toFinset.card ∧
    (Program.ofInserts given).toFunctionTable = table ∧
    (∀ name, (Program.ofInserts given).get? name = given.find? (·.name == name)) ∧
    ∀ before function after, given = before ++ function :: after →
      let held := ofInserts before
      let next := ofInserts (before ++ [function])
      (function.name ∉ before.map (·.name) →
        held.insert function = .ok next ∧
        table.functions[held.size]? = some function ∧
        table.index function.name = some held.size) ∧
      (function.name ∈ before.map (·.name) →
        held.insert function = .error function ∧
        next.functions = held.functions ∧
        (∀ name, next.index name = held.index name ∧ next.get name = held.get name ∧
          next.contains name = held.contains name) ∧
        next.listing = held.listing ∧ next.fingerprint = held.fingerprint) := by
  intro table
  refine ⟨ofInserts_agrees given, functions_ofInserts given, fun name => ⟨get_ofInserts given name,
    contains_ofInserts given name⟩, size_ofInserts given, Program.ofInserts_table given, ?_, ?_⟩
  · intro name
    have found := (Program.ofInserts given).get_eq name
    rw [Program.ofInserts_table, get_ofInserts] at found
    exact (Except.ok.inj found).symm
  · rintro before function after rfl held next
    have agrees := ofInserts_agrees before
    have names := mem_names_ofInserts before function.name
    constructor
    · intro new
      have accepted := offer_new agrees (mt names.mp new)
      rw [← ofInserts_concat] at accepted
      exact ⟨accepted, place_ofInserts new after⟩
    · intro taken
      have same : next = held :=
        (ofInserts_concat before function).trans (offer_taken agrees (names.mpr taken))
      rw [same]
      exact ⟨insert_taken agrees (names.mpr taken), rfl, fun name => ⟨rfl, rfl, rfl⟩, rfl, rfl⟩

private def tableDemo : List Function :=
  [⟨"f", [.create]⟩, ⟨"g", []⟩, ⟨"f", []⟩, ⟨"h", []⟩]

/-- The third function is refused, and the fourth stands right behind the second. -/
theorem table_keeps_first_refusal :
    (ofInserts tableDemo).get "f" = .ok (some ⟨"f", [.create]⟩) ∧
      (ofInserts (tableDemo.take 2)).insert ⟨"f", []⟩ = .error ⟨"f", []⟩ ∧
      (ofInserts tableDemo).functions[2]? = some ⟨"h", []⟩ ∧
      (ofInserts tableDemo).index "h" = some 2 := by
  obtain ⟨-, -, lookups, -, -, -, history⟩ := table_keeps_first tableDemo
  have refused := (history (tableDemo.take 2) ⟨"f", []⟩ [⟨"h", []⟩] rfl).2 (by decide)
  have accepted := (history (tableDemo.take 3) ⟨"h", []⟩ [] rfl).1 (by decide)
  exact ⟨(lookups "f").1, refused.1, accepted.2⟩

end FunctionTable

end Dataflow
