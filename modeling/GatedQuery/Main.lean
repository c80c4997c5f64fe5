import GatedQuery.Command.Check
import GatedQuery.Command.Documentation
import GatedQuery.Command.Line
import GatedQuery.Command.Run

/-! The program reads its command line and its files, and writes what a command answers. Failures go to
the standard error. -/

namespace GatedQuery.Main

def usage : String :=
  "Usage: dataql [--log-level LEVEL] COMMAND

Commands:
  check QUERY [--canonical]                      validate a query without running it
  run QUERY -r REGISTRY [-d DATA] [-p]           run a query against a JSON data document
  docs                                           list documentation categories
  doc CATEGORY                                   show documentation for a category"

/-- The text of the document: that of a file, or that of the standard input unless it is a
terminal. -/
def readDocument : Option String → IO (Option String)
  | some file => return some (← IO.FS.readFile file)
  | none => do
    let input ← IO.getStdin
    if ← input.isTty then return none else return some (← input.readToEnd)

/-- The answer to a request, with its last line break. -/
def answer : Request → IO (Except CommandError String)
  | .check query canonical =>
    return (check query canonical).map fun
      | .valid => "Syntax is valid\n"
      | .canonical text => text ++ "\n"
  | .run query configurationFile documentFile pretty => do
    let configuration ← IO.FS.readFile configurationFile
    let document ← readDocument documentFile
    return (runQuery ⟨query, configuration, document, pretty⟩).map (· ++ "\n")
  | .docs => return .ok DocCategory.overview
  | .doc category => return (DocCategory.ofText category).map DocCategory.text

/-- The level of logging: the one of the command line, or else that of the environment. A level of
the environment has to be one, also where it does not count. -/
def chooseLevel (chosen : Option LogLevel) : IO (Except CommandError LogLevel) := do
  match ← IO.getEnv "DATAQL_LOG_LEVEL" with
  | some text => return (LogLevel.ofText text).map fun level => chosen.getD level
  | none => return .ok (chosen.getD .default)

/-- Run the program on the words of its command line. The result is its exit status. -/
def run (words : List String) : IO UInt32 := do
  match CommandLine.ofList? words with
  | none =>
    IO.eprintln usage
    return 2
  | some line =>
    try
      match ← chooseLevel line.logLevel with
      | .error e =>
        IO.eprintln e.message
        return 1
      | .ok _ =>
        match ← answer line.request with
        | .ok text =>
          IO.print text
          return 0
        | .error e =>
          IO.eprintln e.message
          return 1
    catch e =>
      IO.eprintln ("IO error: " ++ toString e)
      return 1

end GatedQuery.Main

def main (words : List String) : IO UInt32 :=
  GatedQuery.Main.run words
