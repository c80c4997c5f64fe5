import GatedQuery.Unicode.CaseFolding
import GatedQuery.Unicode.Property

/-! A class is a set of characters. Beside it stands how deeply its brackets are nested, which only the
limit on nesting looks at. -/

namespace GatedQuery.Pattern

open Unicode (CharSet)

/-- A set of characters that one place of a pattern accepts. -/
structure CharClass where
  members : CharSet
  /-- How deeply the brackets that describe the set are nested. -/
  height : Nat

namespace CharClass

/-- The class of a set that is written without brackets. -/
def ofSet (s : CharSet) : CharClass := ⟨s, 0⟩

def empty : CharClass := ofSet .empty

def single (c : Char) : CharClass := ofSet (.range c.toNat c.toNat)

def range (low high : Char) : CharClass := ofSet (.range low.toNat high.toNat)

def complement (s : CharClass) : CharClass :=
  { s with members := s.members.complement }

/-- The complement of the class if `negated`, and else the class. -/
def negateIf (negated : Bool) (s : CharClass) : CharClass :=
  if negated then s.complement else s

/-- The class of what an operation makes of the two sets. -/
def combine (op : CharSet → CharSet → CharSet) (s t : CharClass) : CharClass :=
  ⟨op s.members t.members, max s.height t.height⟩

def union : CharClass → CharClass → CharClass :=
  combine CharSet.union

def nested (s : CharClass) : CharClass :=
  { s with height := s.height + 1 }

/-- The class together with what differs from its members only in case. -/
def fold (s : CharClass) : CharClass :=
  { s with members := s.members.fold }

def asciiUpper : CharSet := .range 0x41 0x5A

def asciiLower : CharSet := .range 0x61 0x7A

def raise (distance : Nat) (s : CharSet) : CharSet :=
  ⟨s.ranges.map fun r => (r.1 + distance, r.2 + distance)⟩

def lower (distance : Nat) (s : CharSet) : CharSet :=
  ⟨s.ranges.map fun r => (r.1 - distance, r.2 - distance)⟩

/-- The class together with the letters of ASCII that differ from its members only in case. -/
def foldAscii (s : CharClass) : CharClass :=
  { s with
    members := .unionAll
      [s.members, raise 32 (s.members.inter asciiUpper), lower 32 (s.members.inter asciiLower)] }

def digits : CharClass := ofSet Unicode.decimalNumber

def blanks : CharClass := ofSet Unicode.whiteSpace

def wordChars : CharClass := ofSet Unicode.wordChars

def asciiDigits : CharClass := .range '0' '9'

def asciiBlanks : CharClass := ofSet ⟨[(0x09, 0x0D), (0x20, 0x20)]⟩

def asciiWordChars : CharClass :=
  ofSet ⟨[(0x30, 0x39), (0x41, 0x5A), (0x5F, 0x5F), (0x61, 0x7A)]⟩

/-- The class of ASCII characters that a name between colons stands for. -/
def named? : String → Option CharClass
  | "alnum" => some (ofSet .asciiAlphanumeric)
  | "alpha" => some (ofSet (asciiUpper.union asciiLower))
  | "ascii" => some (.range '\x00' '\x7f')
  | "blank" => some (ofSet ⟨[(0x09, 0x09), (0x20, 0x20)]⟩)
  | "cntrl" => some (ofSet ⟨[(0x00, 0x1F), (0x7F, 0x7F)]⟩)
  | "digit" => some asciiDigits
  | "graph" => some (.range '!' '~')
  | "lower" => some (ofSet asciiLower)
  | "print" => some (.range ' ' '~')
  | "punct" => some (ofSet ((CharSet.range 0x21 0x7E).diff .asciiAlphanumeric))
  | "space" => some asciiBlanks
  | "upper" => some (ofSet asciiUpper)
  | "word" => some asciiWordChars
  | "xdigit" => some (ofSet Unicode.asciiHexDigits)
  | _ => none

end CharClass

end GatedQuery.Pattern
