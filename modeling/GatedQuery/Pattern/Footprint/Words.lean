import GatedQuery.Pattern.Footprint.Basic

/-! The states of an automaton that tells words apart are those of a tree in which words with a common
start share their first branches. Earlier words come first: a branch is shared only as long as no
word has ended at its node since it was added. -/

namespace GatedQuery.Pattern

/-- The branches of a node, and between them the ends of words. Branches before the first end were
added after it. -/
inductive WordTree where
  /-- Nothing more. -/
  | none
  /-- The end of a word. -/
  | stop (others : WordTree)
  /-- A byte and what follows it. -/
  | branch (b : UInt8) (below others : WordTree)

namespace WordTree

/-- Change what follows the byte `b`. Only branches before the first end of a word are shared. -/
def update (b : UInt8) (change : WordTree → WordTree) : WordTree → WordTree
  | .branch c below others =>
    if b = c then .branch c (change below) others else .branch c below (update b change others)
  | t => .branch b (change .none) t

/-- Let a word end. Where no word goes on, one end is as good as two. -/
def insertStop : WordTree → WordTree
  | .stop .none => .stop .none
  | t => .stop t

def insert (t : WordTree) : List UInt8 → WordTree
  | [] => t.insertStop
  | b :: bs => t.update b fun below => below.insert bs

def ofWords (words : List (List UInt8)) : WordTree :=
  words.foldl insert .none

def isLeaf : WordTree → Bool
  | .none | .stop .none => true
  | _ => false

end WordTree

namespace Footprint

/-- The bytes of the encoding of a text, in the order in which they are read. -/
def bytes (d : Direction) (cs : List Char) : List UInt8 :=
  match d with
  | .forwards => cs.flatMap String.utf8EncodeChar
  | .backwards => (cs.flatMap String.utf8EncodeChar).reverse

/-- Add a state with transitions for `count` bytes and a way on to it, if there are any. -/
def addGroup (count : Nat) : Builder Unit := do
  if count = 1 then
    let _ ← add 1 wayOnSize
  else if 1 < count then
    let _ ← add 1 (transitionSize * count + wayOnSize)

/-- Add the states of a node: a branching state, and a state for each group of branches between the
ends of words, with a way on to each group and to each end but the last. `count` branches of a group
are read already. -/
def addWordTree (count : Nat) : WordTree → Builder Unit
  | .none => do
    addGroup count
    let _ ← add 1 0
  | .stop others => do
    addGroup count
    let _ ← add 0 wayOnSize
    addWordTree 0 others
  | .branch _ below others => do
    unless below.isLeaf do addWordTree 0 below
    addWordTree (count + 1) others

def addWords (words : List (List UInt8)) : Builder Ending := do
  let _ ← add 1 0
  addWordTree 0 (.ofWords words)
  return .plain

end Footprint

end GatedQuery.Pattern
