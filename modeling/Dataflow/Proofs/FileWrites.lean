import Dataflow.CommandLine.World

/-! Writing a file and what can be seen of it afterwards. A write that succeeds puts a file
into a directory that exists, so every way through the tree is still there after it. The file
reads back, and a later write to the same path does what it would have done at first. -/
namespace Dataflow

/-- A text that does not end in a separator ends in a piece that is not empty. -/
theorem Text.splitOn_last {separator : Char} {text : List Char} (long : text ≠ [])
    (unclosed : text.getLast? ≠ some separator) :
    ∃ early last, text.splitOn separator = early ++ [last] ∧ last ≠ [] := by
  induction text with
  | nil => exact absurd rfl long
  | cons c rest ih =>
    rw [List.splitOn_cons_eq_if_modifyHead]
    by_cases single : rest = []
    · subst single
      have plain : c ≠ separator := fun same => unclosed (congrArg some same)
      exact ⟨[], [c], by simp [plain], by simp⟩
    · obtain ⟨early, last, cut, full⟩ := ih single fun ends =>
        unclosed (by rw [List.getLast?_cons, ends]; rfl)
      rw [cut]
      split
      · exact ⟨[] :: early, last, rfl, full⟩
      · cases early with
        | nil => exact ⟨[], c :: last, rfl, by simp⟩
        | cons piece early => exact ⟨(c :: piece) :: early, last, rfl, full⟩

namespace CommandLine.FileTree

variable {tree after : FileTree} {path text : String} {place next : Place} {parent : List String}
  {name : String}

/-! ### Entries -/

private theorem lookup_other {names other : List String} (apart : other ≠ names)
    (entries : List (List String × Entry)) :
    (entries.filter (·.1 != names)).lookup other = entries.lookup other := by
  induction entries with
  | nil => rfl
  | cons pair rest ih =>
    obtain ⟨key, entry⟩ := pair
    by_cases same : key = names
    · subst same
      have test : (other == key) = false := beq_eq_false_iff_ne.mpr apart
      simp [List.lookup_cons, test, ih]
    · simp [same, List.lookup_cons, ih]

theorem find?_put (tree : FileTree) {names : List String} (below : names ≠ []) (entry : Entry)
    (other : List String) :
    (tree.put names entry).find? other =
      if other = names then some entry else tree.find? other := by
  cases other with
  | nil => rw [if_neg below.symm]; rfl
  | cons first rest =>
    by_cases same : first :: rest = names
    · simp [find?, put, same]
    · have test : (first :: rest == names) = false := beq_eq_false_iff_ne.mpr same
      simp [find?, put, same, List.lookup_cons, test, lookup_other same]

theorem put_put (tree : FileTree) (names : List String) (first second : Entry) :
    (tree.put names first).put names second = tree.put names second := by
  simp [put, List.filter_filter]

/-! ### Ways through the tree -/

/-- The other tree has all entries of this one, and no directory has become a file. -/
structure Keeps (tree other : FileTree) : Prop where
  directories : ∀ names, tree.find? names = some .directory → other.find? names = some .directory
  entries : ∀ names, (tree.find? names).isSome = true → (other.find? names).isSome = true

/-- A name can be followed from a directory only, or outside. -/
theorem follow_here (followed : tree.follow place name = .ok next) :
    tree.follow place "." = .ok place := by
  cases place with
  | outside => rfl
  | inside names =>
    unfold follow at followed ⊢
    dsimp only at followed ⊢
    split at followed
    · cases followed
    · cases followed
    · simp

theorem follow_keeps {other : FileTree} (keeps : tree.Keeps other)
    (followed : tree.follow place name = .ok next) : other.follow place name = .ok next := by
  cases place with
  | outside => exact followed
  | inside names =>
    unfold follow at followed ⊢
    dsimp only at followed ⊢
    split at followed
    · cases followed
    · cases followed
    · rename_i directory
      rw [keeps.directories names directory]
      dsimp only
      split at followed
      · rename_i here
        rwa [if_pos here]
      · rename_i elsewhere
        rw [if_neg elsewhere]
        split at followed
        · rename_i up
          rwa [if_pos up]
        · rename_i down
          rw [if_neg down]
          split at followed
          · rename_i there
            rwa [if_pos (keeps.entries _ there)]
          · cases followed

theorem walk_cons_iff {rest : List String} :
    (name :: rest).foldlM tree.follow place = .ok next ↔
      ∃ there, tree.follow place name = .ok there ∧ rest.foldlM tree.follow there = .ok next := by
  rw [List.foldlM_cons]
  cases tree.follow place name with
  | error error => simp [bind, Except.bind]
  | ok there => simp [bind, Except.bind]

theorem walk_keeps {other : FileTree} (keeps : tree.Keeps other) {names : List String}
    (walked : names.foldlM tree.follow place = .ok next) :
    names.foldlM other.follow place = .ok next := by
  induction names generalizing place with
  | nil => exact walked
  | cons name rest ih =>
    obtain ⟨there, followed, later⟩ := walk_cons_iff.mp walked
    exact walk_cons_iff.mpr ⟨there, follow_keeps keeps followed, ih later⟩

/-- Empty names on the way to a directory change nothing. -/
theorem walk_dotted {pieces : List (List Char)} (directory : tree.find? parent = some .directory)
    (walked : ((pieces.filter (!·.isEmpty)).map String.ofList).foldlM tree.follow place =
      .ok (.inside parent)) :
    (pieces.map fun name => if name.isEmpty then "." else .ofList name).foldlM tree.follow place =
      .ok (.inside parent) := by
  induction pieces generalizing place with
  | nil => exact walked
  | cons piece rest ih =>
    cases piece with
    | cons c more =>
      obtain ⟨there, followed, later⟩ := walk_cons_iff.mp walked
      exact walk_cons_iff.mpr ⟨there, followed, ih later⟩
    | nil =>
      refine walk_cons_iff.mpr ⟨place, ?_, ih walked⟩
      -- the way goes on from here, or it has come to the directory
      cases names : (rest.filter (!·.isEmpty)).map String.ofList with
      | nil =>
        have arrived : [].foldlM tree.follow place = .ok (.inside parent) := names ▸ walked
        cases arrived
        simp [follow, directory]
      | cons name more =>
        have goes : (name :: more).foldlM tree.follow place = .ok (.inside parent) :=
          names ▸ walked
        obtain ⟨there, followed, -⟩ := walk_cons_iff.mp goes
        exact follow_here followed

/-! ### Reading and writing -/

/-- The path leads to a directory that exists, and names a file there or a place for one. -/
structure Leads (tree : FileTree) (path : String) (parent : List String) (name : String) :
    Prop where
  pieces : ∃ early last, path.toList.splitOn '/' = early ++ [last] ∧ last ≠ [] ∧
    name = .ofList last ∧
    ((early.filter (!·.isEmpty)).map String.ofList).foldlM tree.follow (origin path) =
      .ok (.inside parent)
  unclosed : path.toList.getLast? ≠ some '/'
  plain : ¬ (name = "." ∨ name = "..")
  directory : tree.find? parent = some .directory
  free : tree.find? (parent ++ [name]) ≠ some .directory

theorem leads_long (leads : tree.Leads path parent name) : ¬ path.isEmpty = true := by
  obtain ⟨early, last, cut, full, -⟩ := leads.pieces
  intro empty
  have nothing : path.toList = [] := by simpa using empty
  rw [nothing] at cut
  cases early with
  | nil => exact full (List.singleton_inj.mp cut).symm
  | cons piece early => simp at cut

theorem writeAt_ok_iff :
    tree.writeAt place name text = .ok after ↔
      ∃ parent, place = .inside parent ∧ tree.find? parent = some .directory ∧
        tree.find? (parent ++ [name]) ≠ some .directory ∧
        after = tree.put (parent ++ [name]) (.file (some text)) := by
  constructor
  · intro written
    unfold writeAt at written
    split at written
    · cases written
    · rename_i parent
      split at written
      · rename_i directory
        split at written
        · cases written
        · rename_i free
          cases written
          exact ⟨parent, rfl, directory, free, rfl⟩
      · cases written
      · cases written
  · rintro ⟨parent, rfl, directory, free, rfl⟩
    unfold writeAt
    dsimp only
    rw [directory]
    dsimp only
    split
    · rename_i held
      exact absurd held free
    · rfl

private theorem names_concat (early : List (List Char)) {last : List Char} (full : last ≠ []) :
    ((early ++ [last]).filter (!·.isEmpty)).map String.ofList =
      (early.filter (!·.isEmpty)).map String.ofList ++ [.ofList last] := by
  simp [List.filter_append, full]

/-- A write succeeds exactly at the end of such a path. -/
theorem write_ok_iff :
    tree.write path text = .ok after ↔
      ∃ parent name, tree.Leads path parent name ∧
        after = tree.put (parent ++ [name]) (.file (some text)) := by
  constructor
  · intro written
    unfold write at written
    split at written
    · cases written
    · rename_i long
      dsimp only at written
      split at written
      · cases written
      · rename_i name ends
        split at written
        · cases written
        · rename_i place walked
          split at written
          · split at written <;> cases written
          · rename_i plain
            split at written
            · split at written <;> cases written
            · rename_i unclosed
              obtain ⟨parent, rfl, directory, free, rfl⟩ := writeAt_ok_iff.mp written
              have unslashed : path.toList.getLast? ≠ some '/' := by simpa using unclosed
              obtain ⟨early, last, cut, full⟩ :=
                Text.splitOn_last (by simpa using long) unslashed
              rw [cut, names_concat early full] at ends walked
              rw [List.getLast?_concat] at ends
              rw [List.dropLast_concat] at walked
              cases ends
              exact ⟨parent, _, ⟨⟨early, last, cut, full, rfl, walked⟩, unslashed, plain, directory,
                free⟩, rfl⟩
  · rintro ⟨parent, name, leads, rfl⟩
    have long := leads_long leads
    have unslashed : ¬ (path.toList.getLast? == some '/') = true := by simpa using leads.unclosed
    obtain ⟨⟨early, last, cut, full, rfl, walked⟩, -, plain, directory, free⟩ := leads
    unfold write
    rw [if_neg long, cut, names_concat early full]
    simp only [List.getLast?_concat, List.dropLast_concat, walked, if_neg plain, if_neg unslashed]
    exact writeAt_ok_iff.mpr ⟨parent, rfl, directory, free, rfl⟩

/-- Putting a file where there is no directory keeps all ways. -/
theorem put_keeps {names : List String} (below : names ≠ [])
    (free : tree.find? names ≠ some .directory) (content : Option String) :
    tree.Keeps (tree.put names (.file content)) := by
  constructor
  · intro other directory
    have apart : other ≠ names := by
      rintro rfl
      exact free directory
    rw [find?_put tree below, if_neg apart, directory]
  · intro other held
    rw [find?_put tree below]
    split
    · rfl
    · exact held

/-- After a write the path still leads to where it led. -/
theorem leads_put (leads : tree.Leads path parent name) (content : Option String) :
    (tree.put (parent ++ [name]) (.file content)).Leads path parent name := by
  have below : parent ++ [name] ≠ [] := by simp
  have keeps := put_keeps below leads.free content
  obtain ⟨⟨early, last, cut, full, named, walked⟩, unclosed, plain, directory, -⟩ := leads
  refine ⟨⟨early, last, cut, full, named, walk_keeps keeps walked⟩, unclosed, plain,
    keeps.directories parent directory, ?_⟩
  rw [find?_put tree below, if_pos rfl]
  simp

theorem read_leads (leads : tree.Leads path parent name)
    (held : tree.find? (parent ++ [name]) = some (.file (some text))) :
    tree.read path = .ok text := by
  have long := leads_long leads
  obtain ⟨⟨early, last, cut, full, rfl, walked⟩, -, plain, directory, -⟩ := leads
  obtain ⟨other, up⟩ := not_or.mp plain
  have reaches : tree.follow (.inside parent) (.ofList last) =
      .ok (.inside (parent ++ [.ofList last])) := by
    simp only [follow, directory, if_neg other, if_neg up, held, Option.isSome_some, if_true]
  have whole : (names path).foldlM tree.follow (origin path) =
      .ok (.inside (parent ++ [.ofList last])) := by
    rw [names, cut, List.map_append, List.foldlM_append, walk_dotted directory walked]
    have named : [last].map (fun name : List Char => if name.isEmpty then "." else .ofList name) =
        [.ofList last] := by simp [full]
    rw [named]
    exact walk_cons_iff.mpr ⟨_, reaches, rfl⟩
  simp only [read, if_neg long, whole, held]

/-- What was written can be read. -/
theorem read_write (written : tree.write path text = .ok after) : after.read path = .ok text := by
  obtain ⟨parent, name, leads, rfl⟩ := write_ok_iff.mp written
  apply read_leads (leads_put leads _)
  rw [find?_put tree (by simp), if_pos rfl]

/-- A second write to the path does what it would have done without the first. -/
theorem write_write (written : tree.write path text = .ok after) (later : String) :
    after.write path later = tree.write path later := by
  obtain ⟨parent, name, leads, rfl⟩ := write_ok_iff.mp written
  have alone : tree.write path later = .ok (tree.put (parent ++ [name]) (.file (some later))) :=
    write_ok_iff.mpr ⟨parent, name, leads, rfl⟩
  rw [alone, ← put_put tree (parent ++ [name]) (.file (some text)) (.file (some later))]
  exact write_ok_iff.mpr ⟨parent, name, leads_put leads _, rfl⟩

end CommandLine.FileTree

end Dataflow
