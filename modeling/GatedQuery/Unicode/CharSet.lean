import GatedQuery.Text.Blank

/-! A set is a list of ranges of code points. The ranges are in order and no two of them touch, so that
equal sets are equal lists. The tables of the standard are kept as text, in hexadecimal: `30-39` is
a range, `5F` a single character, and `100-136/2` stands for every second character of a range. -/

namespace GatedQuery.Unicode

/-- The first and the last code point of a range. -/
abbrev CodeRange := Nat × Nat

/-- The characters whose code points lie in one of the ranges. -/
structure CharSet where
  ranges : List CodeRange
deriving DecidableEq, Repr

namespace CharSet

def lastCode : Nat := 0x10FFFF

/-- Join the range from `a` to `b` with the ranges that overlap or touch it. They are in the order
of where they start, and none of them starts before `a`. -/
def fuseFrom (a b : Nat) : List CodeRange → List CodeRange
  | [] => [(a, b)]
  | (c, d) :: rest =>
    if c ≤ b + 1 then fuseFrom a (max b d) rest else (a, b) :: fuseFrom c d rest

/-- Join ranges that overlap or touch. They are in the order of where they start. -/
def fuse : List CodeRange → List CodeRange
  | [] => []
  | (a, b) :: rest => fuseFrom a b rest

def startsBefore (r q : CodeRange) : Bool :=
  r.1 ≤ q.1

def insertRange (r : CodeRange) : List CodeRange → List CodeRange
  | [] => [r]
  | q :: rest => if startsBefore r q then r :: q :: rest else q :: insertRange r rest

def ofRanges (rs : List CodeRange) : CharSet :=
  ⟨fuse (rs.foldr insertRange [])⟩

def ofCodes (ns : List Nat) : CharSet :=
  ⟨fuse ((ns.map fun n => (n, n)).mergeSort startsBefore)⟩

def range (low high : Nat) : CharSet := ⟨[(low, high)]⟩

def empty : CharSet := ⟨[]⟩

def full : CharSet := range 0 lastCode

/-- Whether one of the ranges holds the code point. The first range that does not end before it
decides. -/
def inRanges (n : Nat) : List CodeRange → Bool
  | [] => false
  | (low, high) :: rest => if n ≤ high then low ≤ n else inRanges n rest

def mem (s : CharSet) (c : Char) : Bool :=
  inRanges c.toNat s.ranges

def isEmpty (s : CharSet) : Bool :=
  s.ranges.isEmpty

def isAscii (s : CharSet) : Bool :=
  s.ranges.all fun r => r.2 < 0x80

/-- The only character of the set, if there is just one. -/
def single? (s : CharSet) : Option Nat :=
  match s.ranges with
  | [(low, high)] => if low = high then some low else none
  | _ => none

def union (s t : CharSet) : CharSet :=
  ⟨fuse (s.ranges.merge t.ranges startsBefore)⟩

def unionAll (sets : List CharSet) : CharSet :=
  sets.foldl union empty

/-- The code points from `start` on that lie between the ranges. -/
def gaps (start : Nat) : List CodeRange → List CodeRange
  | [] => if start ≤ lastCode then [(start, lastCode)] else []
  | (low, high) :: rest =>
    if start < low then (start, low - 1) :: gaps (high + 1) rest else gaps (high + 1) rest

/-- The part of a range that characters have: the surrogates are cut off its ends. -/
def trim (r : CodeRange) : Option CodeRange :=
  let isSurrogate := fun n => 0xD800 ≤ n && n ≤ 0xDFFF
  let low := if isSurrogate r.1 then 0xE000 else r.1
  let high := if isSurrogate r.2 then 0xD7FF else r.2
  if low ≤ high then some (low, high) else none

def complement (s : CharSet) : CharSet :=
  ⟨(gaps 0 s.ranges).filterMap trim⟩

def inter (s t : CharSet) : CharSet :=
  (s.complement.union t.complement).complement

/-- The characters of the first set that are not in the second one. -/
def diff (s t : CharSet) : CharSet :=
  s.inter t.complement

/-- The characters that are in exactly one of the two sets. -/
def symmetricDiff (s t : CharSet) : CharSet :=
  (s.diff t).union (t.diff s)

/-- The value of a hexadecimal digit. Other characters count as zero. -/
def hexDigit (c : Char) : Nat :=
  if '0' ≤ c && c ≤ '9' then c.toNat - '0'.toNat
  else if 'A' ≤ c && c ≤ 'F' then c.toNat - 'A'.toNat + 10
  else if 'a' ≤ c && c ≤ 'f' then c.toNat - 'a'.toNat + 10
  else 0

def hexValue (cs : List Char) : Nat :=
  cs.foldl (fun n c => 16 * n + hexDigit c) 0

def everySecond (low high : Nat) : List CodeRange :=
  (List.range ((high - low) / 2 + 1)).map fun i => (low + 2 * i, low + 2 * i)

def rangesOfWord (cs : List Char) : List CodeRange :=
  match cs.span (· != '-') with
  | (single, []) => [(hexValue single, hexValue single)]
  | (low, _ :: high) =>
    match high.span (· != '/') with
    | (high, []) => [(hexValue low, hexValue high)]
    | (high, _ :: _) => everySecond (hexValue low) (hexValue high)

/-- Read a table: the words that stand for ranges, with blanks between them. -/
def ofText (s : String) : CharSet :=
  ofRanges ((Text.words s.toList).flatMap rangesOfWord)

def asciiAlphanumeric : CharSet := ⟨[(0x30, 0x39), (0x41, 0x5A), (0x61, 0x7A)]⟩

end CharSet

end GatedQuery.Unicode
