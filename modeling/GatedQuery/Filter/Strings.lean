import GatedQuery.Filter.Basic
import GatedQuery.Pattern.Replacement
import GatedQuery.Text.Casing
import GatedQuery.Text.Pieces

/-! All of them work on characters. A filter that takes a text as its argument looks at the argument
before it looks at the receiver, except where the argument may be left out. -/

namespace GatedQuery.Builtin

variable {O : Type} [Inspectable O]

def receiveString (v : Value O) : Except CallFailure (List Char) :=
  receive "a string" (fun v => v.string?.map String.toList) v

def ofChars (cs : List Char) : Value O :=
  .string (String.ofList cs)

/-- A filter without parameters that maps the characters of a string. -/
def mapChars (name : String) (f : List Char → List Char) : Builtin O where
  name := name
  params := []
  body v _ := do return ofChars (f (← receiveString v))

/-- A filter that tests a string against the text of its parameter. -/
def testString (name param : String) (test : List Char → List Char → Bool) : Builtin O where
  name := name
  params := [param]
  body v args := do
    let text ← args.getString 0 param
    return .boolean (test text.toList (← receiveString v))

def upper : Builtin O := mapChars "upper" Text.upper

def lower : Builtin O := mapChars "lower" Text.lower

def strip : Builtin O := mapChars "strip" Text.strip

def startsWith : Builtin O := testString "startswith" "prefix" List.isPrefixOf

def endsWith : Builtin O := testString "endswith" "suffix" List.isSuffixOf

def contains : Builtin O := testString "contains" "needle" Text.occursIn

/-- The pieces of the string between the occurrences of a separator, or its words. -/
def split : Builtin O where
  name := "split"
  params := ["sep"]
  body v args := do
    let cs ← receiveString v
    match ← args.getString? 0 "sep" with
    | none => return .list ((Text.words cs).map ofChars)
    | some sep =>
      if sep.isEmpty then throw (.failed "empty separator")
      return .list ((Text.cutAt sep.toList cs).map ofChars)

def getPattern (args : Arguments O) (i : Nat) (name : String) : Except CallFailure Pattern := do
  match Pattern.ofText? (← args.getString i name) with
  | some p => return p
  | none => throw .invalidPattern

/-- Whether a regular expression matches somewhere in the string. -/
def matchesPattern : Builtin O where
  name := "matches"
  params := ["pattern"]
  body v args := do
    let p ← getPattern args 0 "pattern"
    return .boolean (p.isMatch (String.ofList (← receiveString v)))

/-- The string with every match of a regular expression replaced. -/
def replace : Builtin O where
  name := "replace"
  params := ["pattern", "replacement"]
  body v args := do
    let p ← getPattern args 0 "pattern"
    let replacement ← args.getString 1 "replacement"
    return .string (p.replaceAll replacement (String.ofList (← receiveString v)))

end GatedQuery.Builtin
