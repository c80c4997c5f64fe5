import GatedQuery.Decimal.Layout
import GatedQuery.Query.Basic
import GatedQuery.Text.Quoted

/-! The canonical text stands on one line. Indexes and slices are in brackets, named arguments are
marked by a colon, and there is no comma before a closing bracket. -/

namespace GatedQuery

namespace Text

def commaSeparated : List String → String
  | [] => ""
  | [s] => s
  | s :: t :: ss => s ++ ", " ++ commaSeparated (t :: ss)

def decimal (n : Int64) : String :=
  toString n.toInt

end Text

namespace Literal

def canonical : Literal → String
  | null => "null"
  | boolean b => if b then "true" else "false"
  | integer n => Text.decimal n
  | float x => queryFloat.write x
  | string s => Text.literal s

end Literal

namespace Argument

def canonical : Argument → String
  | positional v => v.canonical
  | named n v => n ++ ": " ++ v.canonical

end Argument

namespace Step

/-- The text of a bound of a slice, which is empty for a bound that is left out. -/
def bound : Option Int64 → String
  | none => ""
  | some n => Text.decimal n

def canonical : Step → String
  | member n _ => n
  | call n as _ => n ++ "(" ++ Text.commaSeparated (as.map Argument.canonical) ++ ")"
  | index i _ => "[" ++ Text.decimal i ++ "]"
  | slice start stop step _ =>
    let stride := if step.isSome then ":" ++ bound step else ""
    "[" ++ bound start ++ ":" ++ bound stop ++ stride ++ "]"

/-- The text of the steps that follow another one: a step with a name is marked by a dot. -/
def canonicalTail : List Step → String
  | [] => ""
  | s :: ss => (if s.name?.isSome then "." else "") ++ s.canonical ++ canonicalTail ss

def canonicalChain : List Step → String
  | [] => ""
  | s :: ss => s.canonical ++ canonicalTail ss

end Step

namespace Head

def canonical (h : Head) : String :=
  (match h.label with
    | some a => a ++ ": "
    | none => "") ++ Step.canonicalChain h.chain

end Head

namespace Resource

mutual

def canonical : Resource → String
  | field h => h.canonical
  | list h body => h.canonical ++ "[" ++ canonicalList body ++ "]"
  | object h children =>
    h.canonical ++ (if h.chain.isEmpty then "" else " ")
      ++ (if children.isEmpty then "\x7b\x7d" else "\x7b " ++ canonicalList children ++ " \x7d")

/-- The texts of resources, with a comma and a blank between them. -/
def canonicalList : List Resource → String
  | [] => ""
  | [r] => r.canonical
  | r :: s :: rs => r.canonical ++ ", " ++ canonicalList (s :: rs)

end

end Resource

namespace Query

def canonical (q : Query) : String :=
  q.root.canonical

end Query

end GatedQuery
