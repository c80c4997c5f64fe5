import GatedQuery.Pattern.Footprint.Basic
import GatedQuery.Unicode.Encoded
import Std.Data.HashMap

/-! A set is accepted by the bytes of its members. Forwards, encodings share what they start with, and
states with the same transitions are one state as long as a table of fixed size remembers them.
Backwards, encodings share what they end with in the same way. -/

namespace GatedQuery.Pattern

namespace Footprint

open Unicode (ByteRange ByteTree CharSet)

/-- States of one class that may be shared: a key and the number of its state in each slot of a
table. A later key takes the place of an earlier one. -/
abbrev Shared (κ : Type) := Std.HashMap UInt64 (κ × Nat)

/-- Mix numbers into one, of which the slot of a key is a remainder. -/
def mix (ns : List UInt64) : UInt64 :=
  ns.foldl (fun h n => (h ^^^ n) * 1099511628211) 14695981039346656037

/-- The state that is kept for a key, or else a new one with lists of `lists` bytes. -/
def share {κ : Type} [DecidableEq κ] (slot : UInt64) (key : κ) (lists : Nat) :
    StateT (Shared κ) Builder Nat := do
  let kept := (← get)[slot]?.filter fun entry => entry.1 = key
  match kept with
  | some entry => return entry.2
  | none =>
    let state ← add 1 lists
    modify (·.insert slot (key, state))
    return state

/-- The ways on from a state: ranges of bytes and the numbers of the states after them. -/
abbrev Transitions := List (ByteRange × Nat)

def slotOfTransitions (ts : Transitions) : UInt64 :=
  mix (ts.flatMap fun (r, next) => [r.low.toUInt64, r.high.toUInt64, next.toUInt64]) % 10000

/-- The state with transitions, or `last` if there are none. -/
def treeState (last : Nat) (ts : Transitions) : StateT (Shared Transitions) Builder Nat :=
  if ts.isEmpty then return last
  else share (slotOfTransitions ts) ts (transitionSize * ts.length)

/-- The transitions for a tree of encodings, with states for what is below. Encodings end in the
state `last`. -/
def treeTransitions (last : Nat) : ByteTree → StateT (Shared Transitions) Builder Transitions
  | .leaf => return []
  | .branch r below beside => do
    let next ← treeState last (← treeTransitions last below)
    return (r, next) :: (← treeTransitions last beside)

/-- Add states that read the encodings of a tree forwards. -/
def addTree (t : ByteTree) : Builder Ending := do
  let last ← add 1 0
  let _ ← (treeTransitions last t >>= treeState last).run ∅
  return .plain

/-- A state that accepts a range of bytes and goes on to the state of a number. -/
structure RangeState where
  next : Nat
  range : ByteRange
deriving DecidableEq

/-- The slot of a state that accepts a range of bytes. -/
def slotOfRange (s : RangeState) : UInt64 :=
  mix [s.next.toUInt64, s.range.low.toUInt64, s.range.high.toUInt64] % 1000

/-- Add states that read an encoding backwards. The result is the state of the last byte. -/
def addEncoding (last : Nat) (encoding : List ByteRange) :
    StateT (Shared RangeState) Builder Nat :=
  encoding.foldlM (fun next r => share (slotOfRange ⟨next, r⟩) ⟨next, r⟩ 0) last

/-- Add states that read encodings backwards: a branching state with a way on for each encoding, and
a state in which they end. -/
def addEncodings (encodings : List (List ByteRange)) : Builder Ending := do
  let _ ← add 1 (wayOnSize * encodings.length)
  let last ← add 1 0
  let _ ← (encodings.forM fun encoding => discard (addEncoding last encoding)).run ∅
  return .plain

def addSet (d : Direction) (s : CharSet) : Builder Ending :=
  if s.isAscii then plainly 2 (transitionSize * s.ranges.length)
  else
    match d with
    | .forwards => addTree (.ofEncodings s.encoded)
    | .backwards => addEncodings s.encoded

end Footprint

end GatedQuery.Pattern
