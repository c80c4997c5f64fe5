import GatedQuery.Unicode.CharSet

/-! The standard gives its sets long names and short ones. The letter case of a name does not count, nor
do blanks, hyphens, underscores and a leading "is". -/

namespace GatedQuery.Unicode

namespace Name

def counts (c : Char) : Bool :=
  c.toNat < 0x80 && c != ' ' && c != '_' && c != '-'

/-- Whether a name starts with "is", in any letter case. -/
def startsWithIs (cs : List Char) : Bool :=
  (cs.take 2).map Char.toLower == ['i', 's']

/-- The characters of a name that count, in lowercase. The name `isc` is the one that keeps its
first two letters. -/
def normal (cs : List Char) : List Char :=
  if startsWithIs cs then
    let rest := ((cs.drop 2).filter counts).map Char.toLower
    if rest = ['c'] then ['i', 's', 'c'] else rest
  else (cs.filter counts).map Char.toLower

def same (a b : String) : Bool :=
  normal a.toList == normal b.toList

end Name

structure NamedSet where
  names : List String
  members : CharSet

namespace NamedSet

def isNamed (s : NamedSet) (name : String) : Bool :=
  s.names.any (Name.same name)

def find? (sets : List NamedSet) (name : String) : Option CharSet :=
  (sets.find? fun s => s.isNamed name).map NamedSet.members

end NamedSet

end GatedQuery.Unicode
