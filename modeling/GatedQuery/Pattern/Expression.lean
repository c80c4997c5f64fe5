import GatedQuery.Pattern.CharClass

/-! An expression describes texts. Where it can match a text in several ways, the order of the branches
and the greed of the repetitions say which way comes first. -/

namespace GatedQuery.Pattern

inductive WordChars where
  /-- Those of all scripts. -/
  | all
  /-- Those of ASCII. -/
  | ascii
deriving DecidableEq, Repr

namespace WordChars

def members : WordChars → Unicode.CharSet
  | all => Unicode.wordChars
  | ascii => CharClass.asciiWordChars.members

end WordChars

inductive Look where
  | textStart
  | textEnd
  /-- The start of a line, with line feeds alone or also carriage returns between lines. -/
  | lineStart (carriageReturns : Bool)
  | lineEnd (carriageReturns : Bool)
  /-- A place with a character of a word on exactly one side. -/
  | wordBoundary (words : WordChars)
  | noWordBoundary (words : WordChars)
  | wordStart (words : WordChars)
  | wordEnd (words : WordChars)
  /-- A place without a character of a word before it. -/
  | noWordBefore (words : WordChars)
  | noWordAfter (words : WordChars)
deriving DecidableEq, Repr

inductive Expression where
  /-- Matches the empty text. -/
  | empty
  /-- Matches one character of the class. -/
  | chars (s : CharClass)
  /-- Matches the empty text at a place where the condition holds. -/
  | look (l : Look)
  | sequence (items : List Expression)
  /-- Matches what a branch matches; earlier branches come first. -/
  | choice (branches : List Expression)
  /-- Matches the body at least `least` and at most `most` times, more of them first if `greedy`. -/
  | repeated (body : Expression) (least : Nat) (most : Option Nat) (greedy : Bool)
  | group (body : Expression)
  /-- Matches what the body matches and remembers it as the group of the index. -/
  | capture (index : Nat) (body : Expression)

namespace Expression

def ofItems : List Expression → Expression
  | [] => .empty
  | [e] => e
  | es => .sequence es

def ofBranches : List Expression → Expression
  | [] => .empty
  | [e] => e
  | es => .choice es

mutual

/-- How deeply the parts of the expression are nested. -/
def height : Expression → Nat
  | empty => 0
  | chars s => s.height
  | look _ => 0
  | sequence items => greatestHeight items + 1
  | choice branches => greatestHeight branches + 1
  | repeated body _ _ _ => body.height + 1
  | group body => body.height + 1
  | capture _ body => body.height + 1

def greatestHeight : List Expression → Nat
  | [] => 0
  | e :: es => max e.height (greatestHeight es)

end

end Expression

end GatedQuery.Pattern
