import GatedQuery.Pattern.Reader.Escape

/-! A class in brackets lists characters, ranges and classes, which may be in brackets themselves. Two
classes can be made into one by an operator, which applies to all that stands before it and to the
items up to the next operator. -/

namespace GatedQuery.Pattern

namespace Reader

/-- The class in ASCII between colons that the text after an opening bracket may start with, whether
it is negated, and what follows it. -/
def namedClass? (cs : List Char) : Option (CharClass × Bool × List Char) := do
  match cs with
  | ':' :: cs =>
    let (negate, cs) := match cs with
      | '^' :: cs => (true, cs)
      | _ => (false, cs)
    let (name, cs) ← splitAt? [':'] cs
    match cs with
    | ']' :: cs => return (← CharClass.named? (String.ofList name), negate, cs)
    | _ => none
  | _ => none

/-- A character that may stand in a class. Without the flag for more it is one of ASCII. -/
def classChar (flags : Flags) : Atom → Reader Char
  | .char c _ => if flags.unicode || c.toNat < 0x80 then return c else failure
  | _ => failure

/-- Read one member of a class: an escape, or any other character as itself. -/
def classAtom : Reader Atom := do
  match ← next? with
  | some '\\' =>
    let a ← escape
    return a
  | _ => return .char (← take) false

/-- The character after the next one and the space between them. In a comment the first character
that is not blank counts. -/
def second? : Reader (Option Char) := do
  let after := (← rest).drop 1
  if (← flags).verbose then
    let found := match Text.dropBlanks after with
      | '#' :: cs => Text.dropBlanks cs
      | cs => cs
    return (found.head? <|> after.head?)
  else return after.head?

def classItem : Reader CharClass := do
  let flags ← flags
  let low ← classAtom
  skipSpace
  let second ← second?
  if (← next?) = some '-' && second != some ']' && second != some '-' then
    let _ ← takeSpaced
    let high ← classAtom
    let low ← classChar flags low
    let high ← classChar flags high
    if low ≤ high then return .range low high else failure
  else
    match low with
    | .chars s => return s
    | a => return .single (← classChar flags a)

inductive ClassOperator where
  | intersection
  | difference
  | symmetricDifference

namespace ClassOperator

/-- The operator that a text starts with. Both of its characters are the same. -/
def ofText? : List Char → Option ClassOperator
  | '&' :: '&' :: _ => some intersection
  | '-' :: '-' :: _ => some difference
  | '~' :: '~' :: _ => some symmetricDifference
  | _ => none

def apply (s t : CharClass) : ClassOperator → CharClass
  | intersection => s.combine Unicode.CharSet.inter t
  | difference => s.combine Unicode.CharSet.diff t
  | symmetricDifference => s.combine Unicode.CharSet.symmetricDiff t

end ClassOperator

/-- The members of a class that are read so far: what stands before the last operator, and the items
after it. -/
structure OpenClass where
  left : Option (CharClass × ClassOperator)
  items : List CharClass

namespace OpenClass

/-- The items as one class. Two or more of them are a level of nesting. -/
def union (c : OpenClass) : CharClass :=
  match c.items with
  | [] => .empty
  | [s] => s
  | items => (items.foldl CharClass.union .empty).nested

/-- The class so far. The sides of an operator are folded before it is applied. -/
def close (flags : Flags) (c : OpenClass) : CharClass :=
  match c.left with
  | none => c.union
  | some (s, op) => (op.apply (folded flags s) (folded flags c.union)).nested

def add (s : CharClass) (c : OpenClass) : OpenClass :=
  { c with items := c.items ++ [s] }

end OpenClass

/-- The hyphens, or else the bracket, that a class may start with as plain characters. -/
def leadingItems : Reader (List CharClass) := do
  let hyphens ← takeWhile (· == '-')
  if hyphens.isEmpty && (← takeIf ']') then return [.single ']']
  else return hyphens.map .single

/-- Read the members of a class up to its closing bracket. `inner` reads a class in brackets. -/
def classMembers (inner : Reader CharClass) : Nat → OpenClass → Reader CharClass
  | 0, _ => failure
  | fuel + 1, c => do
    skipSpace
    let flags ← flags
    match ← rest with
    | [] => failure
    | '[' :: cs =>
      match namedClass? cs with
      | some (s, negate, cs) =>
        setRest cs
        classMembers inner fuel (c.add (← negated flags negate (folded flags s)))
      | none =>
        let s ← inner
        classMembers inner fuel (c.add s)
    | ']' :: cs =>
      setRest cs
      return c.close flags
    | cs =>
      match ClassOperator.ofText? cs with
      | some op =>
        setRest (cs.drop 2)
        classMembers inner fuel ⟨some (c.close flags, op), []⟩
      | none =>
        let s ← classItem
        classMembers inner fuel (c.add s)

/-- Read a class in brackets, with at most `depth` levels of brackets. -/
def bracketed : Nat → Reader CharClass
  | 0 => failure
  | depth + 1 => do
    let flags ← flags
    let _ ← takeSpaced
    let negate ← takeIf '^'
    let items ← leadingItems
    let s ← classMembers (bracketed depth) ((← rest).length + 1) ⟨none, items⟩
    return (← negated flags negate (folded flags s)).nested

end Reader

end GatedQuery.Pattern
