import Dataflow.CommandLine.Options
import Dataflow.Event
import Dataflow.Text.Quoted

/-! Log lines of the command line, and which events get one. -/
namespace Dataflow.CommandLine

/-- The most detailed level that is logged, or nothing. -/
structure Verbosity where
  level : Option Level
deriving DecidableEq

namespace Verbosity

def admits (verbosity : Verbosity) (event : Event) : Bool :=
  match verbosity.level with
  | some level => event.level.rank ≤ level.rank
  | none => false

/-- What a setting of the environment asks for. An empty one means errors only. -/
def ofSetting? (setting : String) : Option Verbosity :=
  match String.ofList (setting.toList.map Char.toLower) with
  | "" => some ⟨some .error⟩
  | "off" => some ⟨none⟩
  | "error" => some ⟨some .error⟩
  | "warn" => some ⟨some .warn⟩
  | "info" => some ⟨some .info⟩
  | "debug" => some ⟨some .debug⟩
  | "trace" => some ⟨some .trace⟩
  | _ => none

def ofOptions (options : Options) : Verbosity :=
  if options.trace then ⟨some .trace⟩
  else if options.verbose then ⟨some .debug⟩
  else ⟨some .warn⟩

/-- A setting of the environment goes before the options. -/
def choose (setting : Option String) (options : Options) : Verbosity :=
  (setting.bind ofSetting?).getD (ofOptions options)

end Verbosity

private def fieldText : String × Event.Field → String
  | (key, .text content) => " " ++ key ++ "=" ++ content
  | (key, .name content) => " " ++ key ++ "=" ++ Text.quote content

/-- Level, origin and message, then every field. -/
def logLine (event : Event) : String :=
  let level := event.level.name
  String.ofList (List.replicate (5 - level.length) ' ') ++ level ++ " " ++ event.origin ++ ": " ++
    event.message ++ String.join (event.fields.map fieldText)

end Dataflow.CommandLine
