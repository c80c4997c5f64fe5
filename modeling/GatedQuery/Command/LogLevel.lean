import GatedQuery.Command.Error
import GatedQuery.Text.Casing

/-! A level is named in any letter case. -/

namespace GatedQuery

inductive LogLevel where
  | trace
  | debug
  | info
  | warn
  | error
deriving DecidableEq, Repr

namespace LogLevel

def default : LogLevel := .warn

instance : Inhabited LogLevel := ⟨default⟩

def name : LogLevel → String
  | trace => "trace"
  | debug => "debug"
  | info => "info"
  | warn => "warn"
  | error => "error"

/-- The level of a name. One of them has a second name. -/
def ofName? : String → Option LogLevel
  | "trace" => some trace
  | "debug" => some debug
  | "info" => some info
  | "warn" | "warning" => some warn
  | "error" => some error
  | _ => none

def ofText (s : String) : Except CommandError LogLevel :=
  match ofName? (String.ofList (Text.lower s.toList)) with
  | some level => .ok level
  | none => .error (.invalidConfiguration
      ("unknown log level '" ++ s ++ "', expected one of: trace, debug, info, warn, error"))

end LogLevel

end GatedQuery
