import GatedQuery.Command.LogLevel
import GatedQuery.Text.Pieces

/-! A command line names one command, its operands and its options. An option with a value takes the
word after it, or what follows an equals sign. -/

namespace GatedQuery

inductive Request where
  | check (query : String) (canonical : Bool)
  | run (query configurationFile : String) (documentFile : Option String) (pretty : Bool)
  | docs
  | doc (category : String)

structure CommandWords where
  operands : List String
  flags : List String
  /-- Options with their values, last one first. -/
  values : List (String × String)

namespace CommandWords

/-- The option that a word is, by its short or its long name. -/
def option? : String → Option String
  | "-r" | "--registry" => some "registry"
  | "-d" | "--data" => some "data"
  | "--log-level" => some "log-level"
  | _ => none

/-- The flag that a word is, by its short or its long name. -/
def flag? : String → Option String
  | "-p" | "--pretty" => some "pretty"
  | "--canonical" => some "canonical"
  | _ => none

def joined? (word : String) : Option (String × String) := do
  let (name, value) ← Text.cutOnce? '=' word.toList
  return (← option? (String.ofList name), String.ofList value)

def isOption (word : String) : Bool :=
  word.startsWith "-" && word != "-"

/-- Sort words by their roles. After two hyphens every word is an operand. -/
def ofList? (w : CommandWords) : List String → Option CommandWords
  | [] => some w
  | [word] =>
    match joined? word, flag? word with
    | some v, _ => some { w with values := v :: w.values }
    | none, some f => some { w with flags := f :: w.flags }
    | none, none =>
      if isOption word then none else some { w with operands := w.operands ++ [word] }
  | word :: next :: rest =>
    if word = "--" then some { w with operands := w.operands ++ next :: rest }
    else
      match option? word, joined? word, flag? word with
      | some name, _, _ => ofList? { w with values := (name, next) :: w.values } rest
      | none, some v, _ => ofList? { w with values := v :: w.values } (next :: rest)
      | none, none, some f => ofList? { w with flags := f :: w.flags } (next :: rest)
      | none, none, none =>
        if isOption word then none
        else ofList? { w with operands := w.operands ++ [word] } (next :: rest)

end CommandWords

/-- A request and the level of logging that is chosen with it. -/
structure CommandLine where
  request : Request
  logLevel : Option LogLevel

namespace CommandLine

def request? (w : CommandWords) : Option Request :=
  match w.operands with
  | ["check", query] => some (.check query (w.flags.contains "canonical"))
  | ["run", query] => do
    let file ← w.values.lookup "registry"
    return .run query file (w.values.lookup "data") (w.flags.contains "pretty")
  | ["docs"] => some .docs
  | ["doc", category] => some (.doc category)
  | _ => none

/-- The level of logging of sorted words. Names of levels are in small letters here. -/
def logLevel? (w : CommandWords) : Option (Option LogLevel) :=
  match w.values.lookup "log-level" with
  | some name => (LogLevel.ofName? name).map some
  | none => some none

def ofList? (words : List String) : Option CommandLine := do
  let w ← CommandWords.ofList? ⟨[], [], []⟩ words
  return ⟨← request? w, ← logLevel? w⟩

end CommandLine

end GatedQuery
