import GatedQuery.Pattern.Search
import GatedQuery.Decimal.Numeral

/-! Every match is replaced by a template. After a dollar sign the template names a group by its number
or its name, in braces or as the longest run of letters, digits and underscores. A group that does
not exist or is not part of the match stands for the empty text. -/

namespace GatedQuery.Pattern

inductive TemplatePart where
  | char (c : Char)
  | number (n : Nat)
  | name (s : String)

namespace TemplatePart

/-- Whether `c` can stand in a reference without braces. -/
def isReferenceChar (c : Char) : Bool :=
  c.isAlphanum || c == '_'

/-- The number that digits stand for, if it is below `2 ^ 64`. A plus sign may stand before them. -/
def number? (cs : List Char) : Option Nat :=
  let digits := match cs with
    | '+' :: ds => ds
    | ds => ds
  let n := Nat.ofDigitChars 10 digits 0
  if digits.isEmpty || !digits.all Char.isDigit || Nat.pow 2 64 ≤ n then none else some n

def reference (cs : List Char) : TemplatePart :=
  match number? cs with
  | some n => .number n
  | none => .name (String.ofList cs)

/-- The reference after a dollar sign, and what follows it. -/
def reference? : List Char → Option (TemplatePart × List Char)
  | '\x7b' :: cs =>
    match cs.dropWhile (· != '\x7d') with
    | [] => none
    | _ :: rest => some (reference (cs.takeWhile (· != '\x7d')), rest)
  | cs =>
    match cs.takeWhile isReferenceChar with
    | [] => none
    | run => some (reference run, cs.dropWhile isReferenceChar)

/-- The parts of a template. Two dollar signs stand for one, and a dollar sign that no reference
follows stands for itself. Every part takes a character, so `fuel` need not exceed the length. -/
def ofChars : Nat → List Char → List TemplatePart
  | 0, _ => []
  | _, [] => []
  | fuel + 1, c :: cs =>
    if c = '$' then
      match cs with
      | '$' :: rest => .char '$' :: ofChars fuel rest
      | _ =>
        match reference? cs with
        | some (p, rest) => p :: ofChars fuel rest
        | none => .char '$' :: ofChars fuel cs
    else .char c :: ofChars fuel cs

def expand (p : Pattern) (text : Array Char) (o : Occurrence) : TemplatePart → List Char
  | char c => [c]
  | number n => (o.group? text n).getD []
  | name s => ((p.names.lookup s).bind (o.group? text)).getD []

end TemplatePart

def splice (text : Array Char) (replacement : Occurrence → List Char) (start : Nat) :
    List Occurrence → List Char
  | [] => (text.extract start text.size).toList
  | o :: os =>
    (text.extract start o.start).toList ++ replacement o ++ splice text replacement o.stop os

/-- The text with every match replaced by what the template stands for. -/
def replaceAll (p : Pattern) (template s : String) : String :=
  let text := s.toList.toArray
  let parts := TemplatePart.ofChars template.length template.toList
  String.ofList (splice text (fun o => parts.flatMap (TemplatePart.expand p text o)) 0
    (p.occurrences text))

end GatedQuery.Pattern
