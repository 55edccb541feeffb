import Dataflow.Proofs.SourceLayout

/-! Tokenizing loses and invents nothing. The words of a row are described without the function
that finds them, as the runs between gaps of white space, and a text can be cut into gaps and
runs in one way only. A line that is read has the runs of its row before the comment, under the
place of the row; and a row has a line as soon as anything but white space is before its
comment. -/
namespace Dataflow

/-! ### Runs between gaps -/

namespace Text

/-- The characters with the property White_Space. -/
def whiteSpace : List Char :=
  ['\t', '\n', '\x0b', '\x0c', '\r', ' ', '\x85', '\u00a0', '\u1680', '\u2000', '\u2001',
    '\u2002', '\u2003', '\u2004', '\u2005', '\u2006', '\u2007', '\u2008', '\u2009', '\u200a',
    '\u2028', '\u2029', '\u202f', '\u205f', '\u3000']

/-- The runs of a text without white space, in order. A run ends where white space or the end of
the text follows, and it starts behind white space or at the start of the text, so no run can be
made longer. -/
inductive Runs : List Char → List (List Char) → Prop where
  | gap {gap : List Char} (white : ∀ c ∈ gap, c ∈ whiteSpace) : Runs gap []
  | run {gap run rest : List Char} {runs : List (List Char)}
      (white : ∀ c ∈ gap, c ∈ whiteSpace) (long : run ≠ [])
      (dark : ∀ c ∈ run, c ∉ whiteSpace) (ends : ∀ c ∈ rest.head?, c ∈ whiteSpace)
      (later : Runs rest runs) : Runs (gap ++ (run ++ rest)) (run :: runs)

variable {text : List Char} {runs : List (List Char)} {c : Char}

theorem isBlank_iff : isBlank c = true ↔ c ∈ whiteSpace := by
  simp only [whiteSpace, List.mem_cons, List.not_mem_nil, or_false, ← Char.toNat_inj, isBlank,
    Bool.or_eq_true, Bool.and_eq_true, decide_eq_true_eq, beq_iff_eq, Char.reduceToNat]
  omega

theorem isBlank_eq_false_iff : isBlank c = false ↔ c ∉ whiteSpace := by
  rw [← isBlank_iff, Bool.eq_false_iff]

/-- Every text is cut into gaps and runs. -/
theorem exists_runs (text : List Char) : ∃ runs, Runs text runs := by
  induction text with
  | nil => exact ⟨[], .gap (List.forall_mem_nil _)⟩
  | cons c rest ih =>
    obtain ⟨runs, cut⟩ := ih
    by_cases white : c ∈ whiteSpace
    · -- White space in front widens the first gap.
      cases cut with
      | gap blank => exact ⟨[], .gap (List.forall_mem_cons.mpr ⟨white, blank⟩)⟩
      | run blank long dark ends later =>
        exact ⟨_, .run (List.forall_mem_cons.mpr ⟨white, blank⟩) long dark ends later⟩
    · have alone : ∀ d ∈ [c], d ∉ whiteSpace := List.forall_mem_singleton.mpr white
      cases cut with
      | gap blank =>
        exact ⟨_, .run (List.forall_mem_nil _) (List.cons_ne_nil c []) alone
          (fun d first => blank d (List.mem_of_mem_head? first)) (.gap blank)⟩
      | @run gap run after runs blank long dark ends later =>
        cases gap with
        | nil =>
          exact ⟨_, .run (List.forall_mem_nil _) (List.cons_ne_nil c run)
            (List.forall_mem_cons.mpr ⟨white, dark⟩) ends later⟩
        | cons first gap =>
          have starts : ∀ d ∈ (first :: gap ++ (run ++ after)).head?, d ∈ whiteSpace := by
            rintro _ ⟨⟩
            exact blank first List.mem_cons_self
          exact ⟨_, .run (List.forall_mem_nil _) (List.cons_ne_nil c []) alone starts
            (.run blank long dark ends later)⟩

/-- Behind a run that ends, the words are those of the rest. -/
theorem words_run {run rest : List Char} (long : run ≠ [])
    (dark : ∀ c ∈ run, isBlank c = false) (ends : ∀ c ∈ rest.head?, isBlank c = true) :
    words (run ++ rest) = run :: words rest := by
  cases rest with
  | nil => rw [List.append_nil, words_unbroken long dark, words_blank (List.forall_mem_nil _)]
  | cons c later =>
    have white : isBlank c = true := ends c rfl
    have front := words_append_cons white [] later
    rw [words_append_cons white, words_unbroken long dark, ← List.nil_append (c :: later), front,
      words_blank (List.forall_mem_nil _)]
    rfl

/-- The words of a text are its runs, and no other way to cut it exists. -/
theorem runs_iff : Runs text runs ↔ words text = runs := by
  have only : ∀ {text runs}, Runs text runs → words text = runs := by
    intro text runs cut
    induction cut with
    | gap white => exact words_blank fun c member => isBlank_iff.mpr (white c member)
    | run white long dark ends later ih =>
      rw [words_margin fun c member => isBlank_iff.mpr (white c member),
        words_run long (fun c member => isBlank_eq_false_iff.mpr (dark c member))
          (fun c first => isBlank_iff.mpr (ends c first)), ih]
  constructor
  · exact only
  · rintro rfl
    obtain ⟨runs, cut⟩ := exists_runs text
    rwa [only cut]

/-- The runs joined are the text without its white space. -/
theorem runs_flatten (cut : Runs text runs) : runs.flatten = text.filter (· ∉ whiteSpace) := by
  induction cut with
  | gap white =>
    refine (List.filter_eq_nil_iff.mpr fun c member => ?_).symm
    simpa using white c member
  | @run gap run rest runs white long dark ends later ih =>
    have none : gap.filter (· ∉ whiteSpace) = [] :=
      List.filter_eq_nil_iff.mpr fun c member => by simpa using white c member
    have all : run.filter (· ∉ whiteSpace) = run :=
      List.filter_eq_self.mpr fun c member => by simpa using dark c member
    rw [List.flatten_cons, ih, List.filter_append, List.filter_append, none, all, List.nil_append]

/-- A text has a run exactly if it has a character that is not white space. -/
theorem runs_ne_nil_iff (cut : Runs text runs) : runs ≠ [] ↔ ∃ c ∈ text, c ∉ whiteSpace := by
  cases cut with
  | gap white =>
    exact iff_of_false (fun some => some rfl) fun ⟨c, member, dark⟩ => dark (white c member)
  | @run gap run rest runs white long dark ends later =>
    obtain ⟨c, member⟩ := List.exists_mem_of_ne_nil run long
    refine iff_of_true (List.cons_ne_nil run runs) ⟨c, ?_, dark c member⟩
    exact List.mem_append_right _ (List.mem_append_left _ member)

end Text

/-! ### Lines and their rows -/

namespace Source

variable {rows : List (List Char)} {row : List Char} {number : Nat} {line : Line}

/-- The words of a line, the name first. -/
def Line.words (line : Line) : List (List Char) :=
  (line.name :: line.params).map String.toList

theorem line?_iff_runs :
    line? number row = some line ↔ Text.Runs (code row) line.words ∧ line.number = number := by
  have texts : ∀ {cut : List (List Char)} {words : List String},
      cut.map String.ofList = words ↔ cut = words.map String.toList := by
    intro cut words
    constructor
    · rintro rfl
      simp
    · rintro rfl
      simp
  rw [line?_eq_some_iff, rowWords, texts, Text.runs_iff, Line.words]

theorem linesFrom_ascending (number : Nat) (rows : List (List Char)) :
    (linesFrom number rows).Pairwise (fun a b => a.number < b.number) := by
  induction rows generalizing number with
  | nil => exact .nil
  | cons row rest ih =>
    refine List.pairwise_append.mpr ⟨?_, ih (number + 1), fun line here later below => ?_⟩
    · cases line? number row <;> simp
    · have first := (line?_eq_some_iff.mp (Option.mem_toList.mp here)).2
      have bounds := linesFrom_number below
      omega

theorem mem_tokenize_iff {source : String} :
    line ∈ tokenize source ↔ ∃ place row, (source.toList.splitOn '\n')[place]? = some row ∧
      Text.Runs (code row) line.words ∧ line.number = place + 1 := by
  rw [tokenize, mem_linesFrom_iff, Text.lines]
  simp only [line?_iff_runs, Nat.add_comm 1]

/-- A row with anything but white space before its comment has a line. -/
theorem tokenize_row_iff {source : String} {place : Nat}
    (held : (source.toList.splitOn '\n')[place]? = some row) :
    (∃ line ∈ tokenize source, line.number = place + 1) ↔
      ∃ c ∈ code row, c ∉ Text.whiteSpace := by
  constructor
  · rintro ⟨line, member, numbered⟩
    obtain ⟨other, found, same, cut, place⟩ := mem_tokenize_iff.mp member
    cases Nat.succ.inj (numbered.symm.trans place)
    cases held.symm.trans same
    exact (Text.runs_ne_nil_iff cut).mp (List.cons_ne_nil _ _)
  · intro dark
    obtain ⟨runs, cut⟩ := Text.exists_runs (code row)
    obtain ⟨name, params, rfl⟩ := List.exists_cons_of_ne_nil ((Text.runs_ne_nil_iff cut).mpr dark)
    refine ⟨⟨place + 1, .ofList name, params.map .ofList⟩, mem_tokenize_iff.mpr ?_, rfl⟩
    refine ⟨place, row, held, ?_, rfl⟩
    simpa [Line.words] using cut

/-- Tokenizing loses and invents nothing. Lines have the numbers of their rows, counted from one,
in ascending order, and exactly those rows have one that have anything but white space before
their first semicolon. The name and the parameters of a line are the runs of the row up to there:
none is empty, none has white space or a semicolon in it, and joined they are the text without
its white space. -/
theorem tokenize_exact (source : String) :
    let rows := source.toList.splitOn '\n'
    (tokenize source).Pairwise (fun a b => a.number < b.number) ∧
    (∀ place row, rows[place]? = some row →
      ((∃ line ∈ tokenize source, line.number = place + 1) ↔
        ∃ c ∈ row.takeWhile (· != ';'), c ∉ Text.whiteSpace)) ∧
    ∀ line ∈ tokenize source, ∃ place row, line.number = place + 1 ∧ rows[place]? = some row ∧
      Text.Runs (row.takeWhile (· != ';')) line.words ∧
      (∀ word ∈ line.words, word ≠ [] ∧ ∀ c ∈ word, c ∉ Text.whiteSpace ∧ c ≠ ';') ∧
      line.words.flatten = (row.takeWhile (· != ';')).filter (· ∉ Text.whiteSpace) := by
  intro rows
  refine ⟨linesFrom_ascending _ _, fun place row held => tokenize_row_iff held, ?_⟩
  intro line member
  obtain ⟨place, row, held, cut, numbered⟩ := mem_tokenize_iff.mp member
  refine ⟨place, row, numbered, held, cut, ?_, Text.runs_flatten cut⟩
  intro word inside
  obtain ⟨spelling, listed, rfl⟩ := List.mem_map.mp inside
  obtain ⟨long, clear⟩ := tokenize_spelled member spelling listed
  refine ⟨long, fun c letter => ?_⟩
  exact (clear c letter).imp_left Text.isBlank_eq_false_iff.mp

private def tokenDemo : String := "\ta\u00a0b ;c;d\r\n;x\n \u3000\n\u200bd"

/-- The first row has two words before its comment, and the third one has white space only. -/
theorem tokenize_exact_mixed :
    tokenize tokenDemo = [⟨1, "a", ["b"]⟩, ⟨4, "\u200bd", []⟩] ∧
    Text.Runs "\ta\u00a0b ".toList [['a'], ['b']] ∧
    ¬ ∃ line ∈ tokenize tokenDemo, line.number = 3 := by
  have read : tokenize tokenDemo = [⟨1, "a", ["b"]⟩, ⟨4, "\u200bd", []⟩] := by rfl
  have first : (tokenDemo.toList.splitOn '\n')[0]? = some "\ta\u00a0b ;c;d\r".toList := by rfl
  have third : (tokenDemo.toList.splitOn '\n')[2]? = some [' ', '\u3000'] := by rfl
  obtain ⟨-, numbers, words⟩ := tokenize_exact tokenDemo
  refine ⟨read, ?_, fun some => ?_⟩
  · obtain ⟨place, row, numbered, held, cut, -⟩ :=
      words ⟨1, "a", ["b"]⟩ (read ▸ List.mem_cons_self)
    cases Nat.succ.inj numbered
    cases first.symm.trans held
    exact cut
  · obtain ⟨c, member, dark⟩ := (numbers 2 _ third).mp some
    have white : ∀ c ∈ [' ', '\u3000'], c ∈ Text.whiteSpace :=
      List.forall_mem_cons.mpr ⟨by decide, List.forall_mem_singleton.mpr (by decide)⟩
    exact dark (white c member)

end Source

end Dataflow
