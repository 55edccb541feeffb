import Dataflow.Engine

/-! A snapshot is the state of an engine between two steps, apart from the
program and the state of the primitives. It names the program by fingerprint,
and only an engine for that program goes on from it. -/
namespace Dataflow

structure Snapshot where
  version : UInt32
  /-- Fingerprint of the program that was running. -/
  program : String
  policy : ReadPolicy
  steps : UInt64
  store : Store
  queue : Queue
  frame : Option Frame
deriving DecidableEq

/-- The version of snapshots taken now, and the only one that can be resumed. -/
def Snapshot.currentVersion : UInt32 := 1

namespace Engine

def snapshot (engine : Engine σ) : Snapshot :=
  ⟨Snapshot.currentVersion, engine.program.fingerprint, engine.policy, engine.steps,
    engine.store, engine.queue, engine.frame⟩

/-- An engine that goes on from a snapshot of the same program. -/
def resume (program : Program) (host : σ) (snapshot : Snapshot) : Except Error (Engine σ) :=
  if snapshot.program ≠ program.fingerprint then
    .error (.foreignSnapshot program.fingerprint snapshot.program)
  else if snapshot.version ≠ Snapshot.currentVersion then
    .error (.snapshotVersion Snapshot.currentVersion snapshot.version)
  else
    .ok ⟨program, host, snapshot.policy, snapshot.steps, snapshot.store, snapshot.queue,
      snapshot.frame⟩

end Engine

end Dataflow
