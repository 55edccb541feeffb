import Dataflow.Command
import Dataflow.Digest

/-! A function table is a list of functions in the order of their definition, with an index
from names to places in the list. The list and the index are two things, and that they agree
is a property of a table which every insert keeps. The listing of a table is one canonical
text, and the digest of the listing tells two tables apart. -/
namespace Dataflow

structure Function where
  name : String
  commands : List Command
deriving DecidableEq

namespace Function

def size (function : Function) : Nat := function.commands.length

def isEmpty (function : Function) : Bool := function.commands.isEmpty

def listing (function : Function) : String :=
  "start " ++ function.name ++ "\n" ++
    String.join (function.commands.map fun command => "  " ++ command.text ++ "\n") ++
    "finish\n"

end Function

structure FunctionTable where
  functions : List Function
  /-- The place that is noted for a name. -/
  index : String → Option Nat

namespace FunctionTable

def empty : FunctionTable := ⟨[], fun _ => none⟩

def contains (table : FunctionTable) (name : String) : Bool := (table.index name).isSome

/-- Add a function at the end and note its place. A function whose name is taken is handed
back. -/
def insert (table : FunctionTable) (function : Function) : Except Function FunctionTable :=
  if table.contains function.name then .error function
  else
    let place := table.functions.length
    .ok {
      functions := table.functions ++ [function]
      index := fun name => if name = function.name then some place else table.index name }

/-- The function at the place that is noted for a name. A place outside of the list is an
error. -/
def get (table : FunctionTable) (name : String) : Except Nat (Option Function) :=
  match table.index name with
  | none => .ok none
  | some place =>
    match table.functions[place]? with
    | some function => .ok (some function)
    | none => .error place

def size (table : FunctionTable) : Nat := table.functions.length

def isEmpty (table : FunctionTable) : Bool := table.functions.isEmpty

/-- Every function in order, each between `start` and `finish`. -/
def listing (table : FunctionTable) : String :=
  String.join (table.functions.map Function.listing)

/-- The hexadecimal digest of the listing. Comments, blank lines and spacing of
the source do not show in it. -/
def fingerprint (table : FunctionTable) : String :=
  (Digest.sha256 table.listing.toUTF8.toList).hex

/-- A place is noted for a name exactly if the function of that name stands there. -/
def Agrees (table : FunctionTable) : Prop :=
  ∀ name place, table.index name = some place ↔
    ∃ function, table.functions[place]? = some function ∧ function.name = name

variable {table next : FunctionTable} {function : Function} {name : String}

theorem insert_ok (inserted : table.insert function = .ok next) :
    table.index function.name = none ∧ next.functions = table.functions ++ [function] ∧
      ∀ name, next.index name =
        if name = function.name then some table.functions.length else table.index name := by
  unfold insert at inserted
  split at inserted
  · cases inserted
  · rename_i absent
    cases inserted
    exact ⟨by simpa [contains] using absent, rfl, fun name => rfl⟩

theorem empty_agrees : empty.Agrees := by
  intro name place
  simp [empty]

/-- An insert leaves the places of the other names, and no name is noted twice. -/
theorem Agrees.insert (agrees : table.Agrees) (inserted : table.insert function = .ok next) :
    next.Agrees := by
  obtain ⟨absent, grown, noted⟩ := insert_ok inserted
  intro name place
  have standing : (∃ held, next.functions[place]? = some held ∧ held.name = name) ↔
      table.index name = some place ∨ place = table.functions.length ∧ function.name = name := by
    rw [agrees, grown]
    by_cases last : place = table.functions.length
    · subst last
      simp
    · have old : (table.functions ++ [function])[place]? = table.functions[place]? := by
        rw [List.getElem?_append]
        split
        · rfl
        · rw [List.getElem?_eq_none (by simp; omega), List.getElem?_eq_none (by omega)]
      simp [old, last]
  rw [standing, noted]
  by_cases same : name = function.name
  · subst same
    simp [absent, eq_comm]
  · simp [same, Ne.symm same]

/-- A place that is noted lies in the list. -/
theorem Agrees.get_ne_error (agrees : table.Agrees) (name : String) (place : Nat) :
    table.get name ≠ .error place := by
  unfold get
  split
  · simp
  · rename_i noted
    obtain ⟨function, found, -⟩ := (agrees name _).mp noted
    rw [found]
    simp

/-- No two functions have the same name, since one place is noted for it. -/
theorem Agrees.distinct (agrees : table.Agrees) : (table.functions.map (·.name)).Nodup := by
  apply List.pairwise_iff_getElem.2
  intro first second inside within before same
  rw [List.length_map] at inside within
  rw [List.getElem_map, List.getElem_map] at same
  have noted := (agrees _ first).2 ⟨_, List.getElem?_eq_getElem inside, same⟩
  have again := (agrees _ second).2 ⟨_, List.getElem?_eq_getElem within, rfl⟩
  cases noted.symm.trans again
  exact Nat.lt_irrefl _ before

end FunctionTable

end Dataflow
