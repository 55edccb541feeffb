import Dataflow.Primitives.Scripted
import Dataflow.Proofs.CheckpointFidelity
import Dataflow.Proofs.ListingRoundTrip

/-! Which programs a snapshot fits. A snapshot names its program by the digest of the listing,
in hexadecimal. Both steps lose nothing but what the digest itself loses: a listing reads back
as its program, so two programs with one listing are the same, and sixty-four hexadecimal
digits are those of one digest only. -/
namespace Dataflow

/-! ### Hexadecimal digits -/

namespace Digest

theorem length_hexDigits (count n : Nat) : (hexDigits count n).length = count := by
  induction count generalizing n with
  | zero => rfl
  | succ count ih => rw [hexDigits, List.length_append, ih, List.length_singleton]

/-- A number that the digits have room for can be told from them. -/
theorem hexDigits_inj {count m n : Nat} (roomy : m < Nat.pow 16 count)
    (other : n < Nat.pow 16 count) (same : hexDigits count m = hexDigits count n) : m = n := by
  induction count generalizing m n with
  | zero => exact (Nat.lt_one_iff.mp roomy).trans (Nat.lt_one_iff.mp other).symm
  | succ count ih =>
    have digits : ∀ d < 16, ∀ e < 16, Nat.digitChar d = Nat.digitChar e → d = e := by decide
    have room : Nat.pow 16 (count + 1) = Nat.pow 16 count * 16 := rfl
    obtain ⟨front, last⟩ := List.append_inj' same rfl
    have high : m / 16 = n / 16 := ih (by omega) (by omega) front
    have low : m % 16 = n % 16 := digits _ (Nat.mod_lt m (by decide)) _ (Nat.mod_lt n (by decide))
      (List.singleton_inj.mp last)
    omega

private theorem wordDigits_inj {words others : List UInt32} (long : words.length = others.length)
    (same : words.flatMap (fun word => hexDigits 8 word.toNat) =
      others.flatMap fun word => hexDigits 8 word.toNat) : words = others := by
  induction words generalizing others with
  | nil => exact (List.length_eq_zero_iff.mp long.symm).symm
  | cons word rest ih =>
    cases others with
    | nil => cases long
    | cons first later =>
      have width : (hexDigits 8 word.toNat).length = (hexDigits 8 first.toNat).length := by
        rw [length_hexDigits, length_hexDigits]
      obtain ⟨front, back⟩ := List.append_inj same width
      have room : ∀ word : UInt32, word.toNat < Nat.pow 16 8 := UInt32.toNat_lt
      have equal : word.toNat = first.toNat := hexDigits_inj (room word) (room first) front
      rw [UInt32.toNat_inj.mp equal, ih (Nat.succ.inj long) back]

/-- A digest can be told from its hexadecimal digits. -/
theorem State.hex_inj {digest other : State} (same : digest.hex = other.hex) : digest = other := by
  have words : digest.words = other.words := wordDigits_inj rfl (String.ofList_injective same)
  cases digest
  cases other
  cases words
  rfl

end Digest

/-! ### Listings -/

/-- Programs that were read from sources have the same listing only if they are the same. -/
theorem Source.listing_inj {source other : String} {program next : Program}
    (read : parse source = .ok program) (readNext : parse other = .ok next)
    (same : program.listing = next.listing) : program = next := by
  have back : ∀ {text : String} {read : Program}, parse text = .ok read →
      parse (read.listing ++ "") = .ok read := fun parsed =>
    parse_listing_append _ (parsed_spelled parsed) "" fun _ => rfl
  have first := back read
  rw [same, back readNext] at first
  cases first
  rfl

namespace Engine

/-- A snapshot is taken up by the programs with the fingerprint of its own, and refused as
foreign by all others. -/
theorem resume_snapshot (engine : Engine σ) (next : Program) (host : τ) :
    resume next host engine.snapshot =
      if engine.program.fingerprint = next.fingerprint then
        .ok { engine.rehost host with program := next }
      else .error (.foreignSnapshot next.fingerprint engine.program.fingerprint) := by
  have program : engine.snapshot.program = engine.program.fingerprint := rfl
  have version : engine.snapshot.version = Snapshot.currentVersion := rfl
  rw [resume, program, if_neg (not_not_intro version), ite_not]
  rfl

/-- A snapshot is taken up by the same program and by no other. Whatever the two sources look
like, the engine of the one goes on with the other if both define the same functions in the
same order; if they do not, the snapshot is refused as foreign, unless the digests of the two
listings collide. For listings tell programs apart, and hexadecimal digits tell digests apart. -/
theorem resume_accepts_same_program {source other : String} {program next : Program}
    (read : Source.parse source = .ok program) (readNext : Source.parse other = .ok next)
    (noCollision : Digest.sha256 program.listing.toUTF8.toList =
      Digest.sha256 next.listing.toUTF8.toList → program.listing.toUTF8 = next.listing.toUTF8)
    (engine : Engine σ) (runs : engine.program = program) (host : τ) :
    ((∃ resumed, resume next host engine.snapshot = .ok resumed) ↔
      program.functions = next.functions) ∧
    (program.functions = next.functions →
      resume next host engine.snapshot = .ok (engine.rehost host)) ∧
    (program.functions ≠ next.functions →
      resume next host engine.snapshot =
        .error (.foreignSnapshot next.fingerprint program.fingerprint)) ∧
    (program.listing = next.listing ↔ program.functions = next.functions) ∧
    ∀ left right : Digest.State, left.hex = right.hex ↔ left = right := by
  subst runs
  have listings : engine.program.listing = next.listing ↔
      engine.program.functions = next.functions := by
    constructor
    · intro same
      rw [Source.listing_inj read readNext same]
    · intro same
      rw [Program.ext same]
  have accepts : engine.program.functions = next.functions →
      resume next host engine.snapshot = .ok (engine.rehost host) := by
    intro same
    have equal := Program.ext same
    rw [resume_snapshot, if_pos (congrArg (·.fingerprint) equal), ← equal]
    rfl
  have refuses : engine.program.functions ≠ next.functions →
      resume next host engine.snapshot =
        .error (.foreignSnapshot next.fingerprint engine.program.fingerprint) := by
    intro different
    rw [resume_snapshot, if_neg]
    intro same
    have bytes := noCollision (Digest.State.hex_inj same)
    exact different (listings.mp (String.toByteArray_inj.mp bytes))
  refine ⟨⟨?_, fun same => ⟨_, accepts same⟩⟩, accepts, refuses, listings,
    fun _ _ => ⟨Digest.State.hex_inj, congrArg _⟩⟩
  rintro ⟨resumed, taken⟩
  apply Decidable.byContradiction
  intro different
  cases taken.symm.trans (refuses different)

private def resumeDemo : Program :=
  .ofFunctions [⟨"f", [.create]⟩, ⟨"g", []⟩] (by decide)

private def resumeDemoSpaced : String :=
  "; f\n\tstart  f ; first\n\n create\nfinish\nstart g\nfinish\n"

private def resumeDemoSwapped : Program :=
  .ofFunctions [⟨"g", []⟩, ⟨"f", [.create]⟩] (by decide)

/-- Comments and spacing do not matter to a snapshot, but the order of the functions does. -/
theorem resume_accepts_same_program_swapped :
    let snapshot := (ofProgram resumeDemo ()).snapshot
    Source.parse resumeDemo.listing = .ok resumeDemo ∧
      Source.parse resumeDemoSpaced = .ok resumeDemo ∧
      Source.parse resumeDemoSwapped.listing = .ok resumeDemoSwapped ∧
      resume resumeDemo () snapshot = .ok (ofProgram resumeDemo ()) ∧
      resume resumeDemoSwapped () snapshot =
        .error (.foreignSnapshot resumeDemoSwapped.fingerprint resumeDemo.fingerprint) := by
  have read : Source.parse resumeDemo.listing = .ok resumeDemo :=
    Source.parse_of_functions (by rfl)
  have spaced : Source.parse resumeDemoSpaced = .ok resumeDemo :=
    Source.parse_of_functions (by rfl)
  have swapped : Source.parse resumeDemoSwapped.listing = .ok resumeDemoSwapped :=
    Source.parse_of_functions (by rfl)
  have apart : Digest.sha256 resumeDemo.listing.toUTF8.toList ≠
      Digest.sha256 resumeDemoSwapped.listing.toUTF8.toList := by decide +kernel
  obtain ⟨-, accepted, -⟩ := resume_accepts_same_program read spaced (fun _ => rfl)
    (ofProgram resumeDemo ()) rfl ()
  obtain ⟨-, -, refused, -⟩ := resume_accepts_same_program read swapped
    (fun same => absurd same apart) (ofProgram resumeDemo ()) rfl ()
  exact ⟨read, spaced, swapped, accepted rfl, refused (by decide)⟩

end Engine

end Dataflow
