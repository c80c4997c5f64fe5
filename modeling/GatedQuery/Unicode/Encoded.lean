import GatedQuery.Unicode.CharSet

/-! A character is encoded by one to four bytes. A range of characters is cut into pieces whose
encodings are all the combinations of one range for each byte. In this module an encoding is such a
list of ranges of bytes. -/

namespace GatedQuery.Unicode

/-- The least and the greatest byte at one place of an encoding. -/
structure ByteRange where
  low : UInt8
  high : UInt8
deriving DecidableEq, Repr

namespace Encoded

/-- The last code points that one, two and three bytes encode. -/
def lastOfLength : List Nat := [0x7F, 0x7FF, 0xFFFF]

/-- Where to cut a range whose encodings have one length, so that the last `6 * i` bits of a part
take all values or are the only ones that vary. -/
def blockCut? (low high i : Nat) : Option (Nat × Nat) :=
  let block := Nat.pow 2 (6 * i)
  if low / block = high / block then none
  else if low % block ≠ 0 then
    let next := (low / block + 1) * block
    some (next - 1, next)
  else if high % block ≠ block - 1 then
    let start := high / block * block
    some (start - 1, start)
  else none

/-- Where to cut a range whose encodings are not yet combinations: the end of the first part and the
start of the second one. Surrogates lie between two parts. -/
def cut? (low high : Nat) : Option (Nat × Nat) :=
  if low < 0xE000 && 0xD7FF < high then some (0xD7FF, 0xE000)
  else
    match lastOfLength.find? fun m => low ≤ m && m < high with
    | some m => some (m, m + 1)
    | none => if high ≤ 0x7F then none else [1, 2, 3].findSome? (blockCut? low high)

def pieces (low high : Nat) : List CodeRange :=
  match cut? low high with
  | none => [(low, high)]
  | some (stop, start) =>
    if stop < high ∧ low < start ∧ start ≤ high then pieces low stop ++ pieces start high
    else [(low, high)]
termination_by high - low

def bytes (n : Nat) : List UInt8 :=
  String.utf8EncodeChar (Char.ofNat n)

def ofPiece (r : CodeRange) : List ByteRange :=
  List.zipWith ByteRange.mk (bytes r.1) (bytes r.2)

end Encoded

def CharSet.encoded (s : CharSet) : List (List ByteRange) :=
  (s.ranges.flatMap fun r => Encoded.pieces r.1 r.2).map Encoded.ofPiece

/-- Encodings in order, with what neighbours start with in common kept once. -/
inductive ByteTree where
  /-- Nothing more. -/
  | leaf
  /-- A range of bytes, what follows them, and the encodings that start otherwise. -/
  | branch (r : ByteRange) (below beside : ByteTree)

namespace ByteTree

def insert : List ByteRange → ByteTree → ByteTree
  | [], t => t
  | r :: rs, .leaf => .branch r (insert rs .leaf) .leaf
  | r :: rs, .branch q below beside =>
    if r = q then .branch q (insert rs below) beside
    else .branch r (insert rs .leaf) (.branch q below beside)

def ofEncodings (encodings : List (List ByteRange)) : ByteTree :=
  encodings.foldr insert .leaf

end ByteTree

end GatedQuery.Unicode
