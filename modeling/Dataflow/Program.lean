import Dataflow.FunctionTable

/-! A program is a function table whose list and index agree. So a lookup ends inside the
list, no two functions have the same name, and the functions alone tell programs apart. -/
namespace Dataflow

structure Program extends FunctionTable where
  agrees : toFunctionTable.Agrees

namespace Program

@[ext] theorem ext {a b : Program} (same : a.functions = b.functions) : a = b := by
  obtain ⟨⟨functions, index⟩, agrees⟩ := a
  obtain ⟨⟨others, other⟩, agree⟩ := b
  cases same
  have noted : index = other := by
    funext name
    apply Option.ext
    intro place
    exact (agrees name place).trans (agree name place).symm
  cases noted
  rfl

instance : DecidableEq Program := fun a b =>
  if same : a.functions = b.functions then .isTrue (ext same)
  else .isFalse fun equal => same (congrArg (·.functions) equal)

theorem distinct (program : Program) : (program.functions.map (·.name)).Nodup :=
  program.agrees.distinct

def empty : Program := ⟨.empty, FunctionTable.empty_agrees⟩

/-- The program with these functions. -/
def ofFunctions (functions : List Function) (distinct : (functions.map (·.name)).Nodup) :
    Program where
  functions := functions
  index := fun name => functions.findIdx? (·.name == name)
  agrees := by
    intro name place
    change functions.findIdx? (·.name == name) = some place ↔
      ∃ function, functions[place]? = some function ∧ function.name = name
    rw [List.findIdx?_eq_some_iff_getElem]
    constructor
    · rintro ⟨inside, named, -⟩
      exact ⟨_, List.getElem?_eq_getElem inside, by simpa using named⟩
    · rintro ⟨function, found, named⟩
      obtain ⟨inside, rfl⟩ := List.getElem?_eq_some_iff.1 found
      refine ⟨inside, by simpa using named, fun earlier before same => ?_⟩
      have apart := List.pairwise_iff_getElem.1 distinct earlier place
        (by rw [List.length_map]; omega) (by rwa [List.length_map]) before
      rw [List.getElem_map, List.getElem_map, named] at apart
      exact apart (by simpa using same)

/-- The function of a name. Its place lies in the list. -/
def get? (program : Program) (name : String) : Option Function :=
  match found : program.get name with
  | .ok function => function
  | .error place => absurd found (program.agrees.get_ne_error name place)

/-- Add a function at the end. A function whose name is taken is handed back. -/
def insert (program : Program) (function : Function) : Except Function Program :=
  match inserted : program.toFunctionTable.insert function with
  | .ok table => .ok ⟨table, program.agrees.insert inserted⟩
  | .error refused => .error refused

end Program

end Dataflow
