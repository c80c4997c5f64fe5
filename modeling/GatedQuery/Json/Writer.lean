import GatedQuery.Decimal.Layout
import GatedQuery.Json.Basic

/-! The compact text has no blank in it. The pretty text has one item on a line and indents by two
blanks. Strings escape the quote, the backslash and the control characters below the space. -/

namespace GatedQuery

namespace Json

def stringChar (c : Char) : List Char :=
  if c = '"' then ['\\', '"']
  else if c = '\\' then ['\\', '\\']
  else if c = '\x08' then ['\\', 'b']
  else if c = '\t' then ['\\', 't']
  else if c = '\n' then ['\\', 'n']
  else if c = '\x0c' then ['\\', 'f']
  else if c = '\r' then ['\\', 'r']
  else if c.toNat < 0x20 then
    ['\\', 'u', '0', '0', Nat.digitChar (c.toNat / 16), Nat.digitChar (c.toNat % 16)]
  else [c]

def quote (s : String) : String :=
  String.ofList ('"' :: (s.toList.flatMap stringChar ++ ['"']))

def scalar : Json → String
  | null => "null"
  | boolean b => if b then "true" else "false"
  | integer n => toString n.toInt
  | float x => jsonFloat.write x
  | string s => quote s
  | array _ => "[]"
  | object _ => "\x7b\x7d"

mutual

def compact : Json → String
  | array items => "[" ++ compactItems items ++ "]"
  | object members => "\x7b" ++ compactMembers members ++ "\x7d"
  | j => j.scalar

/-- The compact texts of items, with commas between them. -/
def compactItems : List Json → String
  | [] => ""
  | [j] => j.compact
  | j :: k :: js => j.compact ++ "," ++ compactItems (k :: js)

/-- The compact texts of members, with commas between them. -/
def compactMembers : List (String × Json) → String
  | [] => ""
  | [(k, j)] => quote k ++ ":" ++ j.compact
  | (k, j) :: m :: ms => quote k ++ ":" ++ j.compact ++ "," ++ compactMembers (m :: ms)

end

def newLine (depth : Nat) : String :=
  String.ofList ('\n' :: List.replicate (2 * depth) ' ')

mutual

/-- The pretty text of a value that stands at a depth. -/
def prettyAt (depth : Nat) : Json → String
  | array (j :: js) =>
    "[" ++ newLine (depth + 1) ++ prettyItems (depth + 1) (j :: js) ++ newLine depth ++ "]"
  | object (m :: ms) =>
    "\x7b" ++ newLine (depth + 1) ++ prettyMembers (depth + 1) (m :: ms) ++ newLine depth
      ++ "\x7d"
  | j => j.scalar

/-- The pretty texts of items at a depth, each on a line of its own. -/
def prettyItems (depth : Nat) : List Json → String
  | [] => ""
  | [j] => prettyAt depth j
  | j :: k :: js => prettyAt depth j ++ "," ++ newLine depth ++ prettyItems depth (k :: js)

/-- The pretty texts of members at a depth, each on a line of its own. -/
def prettyMembers (depth : Nat) : List (String × Json) → String
  | [] => ""
  | [(k, j)] => quote k ++ ": " ++ prettyAt depth j
  | (k, j) :: m :: ms =>
    quote k ++ ": " ++ prettyAt depth j ++ "," ++ newLine depth ++ prettyMembers depth (m :: ms)

end

def pretty (j : Json) : String :=
  j.prettyAt 0

end Json

end GatedQuery
