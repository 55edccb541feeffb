import Dataflow.CommandLine.Run

/-! The command line: performs a session on the real files and streams. -/
namespace Dataflow.CommandLine

/-- What a failure of the system means to a session. -/
def FileError.ofSystem : IO.Error → FileError
  | .noFileOrDirectory _ _ _ => .notFound
  | .inappropriateType _ _ details =>
    if details = "is a directory" then .isDirectory else .notDirectory
  | .permissionDenied _ _ _ => .other "Permission denied (os error 13)"
  | error => .other (toString error)

def readText (path : String) : IO (Except FileError String) := do
  try
    let bytes ← IO.FS.readBinFile path
    match String.fromUTF8? bytes with
    | some text => return .ok text
    | none => return .error .notText
  catch error => return .error (.ofSystem error)

def writeText (path text : String) : IO (Except FileError Unit) := do
  try
    IO.FS.writeFile path text
    return .ok ()
  catch error => return .error (.ofSystem error)

def printText (stream : Stream) (text : String) : IO Unit := do
  let handle ← match stream with
    | .out => IO.getStdout
    | .err => IO.getStderr
  handle.putStr text
  handle.flush

/-- Let a session run its course. -/
def Session.perform : Session α → IO α
  | .done result => return result
  | .print stream text next => do
    printText stream text
    (next ()).perform
  | .read path next => do
    let reply ← readText path
    (next reply).perform
  | .write path text next => do
    let reply ← writeText path text
    (next reply).perform

/-- More steps than a run can take in practice. -/
def ampleFuel : Nat := 4611686018427387904

def Exit.code : Exit → UInt32
  | .status code => code.toUInt32
  | .crash => 101
  | .unfinished => 102

end Dataflow.CommandLine

def main (words : List String) : IO UInt32 := do
  let setting ← IO.getEnv "RUST_LOG"
  let session := Dataflow.CommandLine.session Dataflow.CommandLine.ampleFuel setting words
  return (← session.perform).code
