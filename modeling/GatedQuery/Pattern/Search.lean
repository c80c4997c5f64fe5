import GatedQuery.Pattern.Basic

/-! A search looks for the leftmost match and, among those, for the one that the order of the branches
puts first. It tries the branches in that order and goes back to the next one when a branch fails. A
state of the program that failed at a place fails there whatever led to it, so that no state is
entered twice at one place and the search takes time in proportion to program and text. -/

namespace GatedQuery.Pattern

namespace Look

def before? (text : Array Char) (i : Nat) : Option Char :=
  if i = 0 then none else text[i - 1]?

/-- Whether the condition holds at the place before the character `i`. -/
def holds (text : Array Char) (i : Nat) (l : Look) : Bool :=
  let before := before? text i
  let after := text[i]?
  match l with
  | textStart => i == 0
  | textEnd => after.isNone
  | lineStart false => before.all (· == '\n')
  | lineStart true => before.all fun c => c == '\n' || (c == '\r' && after != some '\n')
  | lineEnd false => after.all (· == '\n')
  | lineEnd true => after.all fun c => c == '\r' || (c == '\n' && before != some '\r')
  | wordBoundary w => before.any w.members.mem != after.any w.members.mem
  | noWordBoundary w => before.any w.members.mem == after.any w.members.mem
  | wordStart w => !before.any w.members.mem && after.any w.members.mem
  | wordEnd w => before.any w.members.mem && !after.any w.members.mem
  | noWordBefore w => !before.any w.members.mem
  | noWordAfter w => !after.any w.members.mem

end Look

/-- The places that are remembered: those where groups start and end. -/
abbrev Slots := List (Nat × Nat)

/-- A way to go on: the instruction that is next, the place in the text, and the places remembered
on the way, last one first. -/
structure Thread where
  instruction : Nat
  place : Nat
  slots : Slots

/-- What a search knows: which states it entered at which places. -/
abbrev Visited := Array Bool

namespace Thread

/-- The thread at an instruction that is a distance away. -/
def goTo (t : Thread) (distance : Int) : Thread :=
  { t with instruction := ((t.instruction : Int) + distance).toNat }

/-- The threads that one instruction leads to, the preferred one first. -/
def step (text : Array Char) (t : Thread) : Instruction → List Thread
  | .char s =>
    if text[t.place]?.any s.mem then [{ t.goTo 1 with place := t.place + 1 }] else []
  | .look l => if l.holds text t.place then [t.goTo 1] else []
  | .save slot => [{ t.goTo 1 with slots := (slot, t.place) :: t.slots }]
  | .branch first second => [t.goTo first, t.goTo second]
  | .jump distance => [t.goTo distance]

end Thread

/-- Run threads in order until one reaches the end of the program. Every round drops a thread or
enters a new state, which adds at most one thread, so that `fuel` need not exceed the number of
threads by more than twice the number of states. -/
def explore (p : Pattern) (text : Array Char) :
    Nat → Visited → List Thread → Option Slots × Visited
  | 0, visited, _ => (none, visited)
  | _, visited, [] => (none, visited)
  | fuel + 1, visited, t :: threads =>
    match p.program[t.instruction]? with
    | none => (some t.slots, visited)
    | some i =>
      let state := t.instruction * (text.size + 1) + t.place
      if visited.getD state true then explore p text fuel visited threads
      else explore p text fuel (visited.setIfInBounds state true) (t.step text i ++ threads)

/-- Run the program on the text from the place `start`. -/
def runAt (p : Pattern) (text : Array Char) (visited : Visited) (start : Nat) :
    Option Slots × Visited :=
  p.explore text (2 * visited.size + 2) visited [⟨0, start, []⟩]

/-- Search for a match that starts at the place `start` or at one of the `count` places after it. -/
def searchFrom (p : Pattern) (text : Array Char) : Nat → Visited → Nat → Option Slots
  | 0, visited, start => (p.runAt text visited start).1
  | count + 1, visited, start =>
    match p.runAt text visited start with
    | (some slots, _) => some slots
    | (none, visited) => searchFrom p text count visited (start + 1)

/-- A match: where it starts and ends, and where its groups do. -/
structure Occurrence where
  start : Nat
  stop : Nat
  slots : Slots

namespace Occurrence

def ofSlots (slots : Slots) : Occurrence :=
  ⟨(slots.lookup 0).getD 0, (slots.lookup 1).getD 0, slots⟩

/-- The characters of a group, if the group is part of the match. -/
def group? (o : Occurrence) (text : Array Char) (index : Nat) : Option (List Char) := do
  let start ← o.slots.lookup (2 * index)
  let stop ← o.slots.lookup (2 * index + 1)
  return (text.extract start stop).toList

end Occurrence

/-- The first match at or after a place. Conditions may look at what is before that place. -/
def find? (p : Pattern) (text : Array Char) (start : Nat) : Option Occurrence :=
  if text.size < start then none
  else
    let visited := Array.replicate (p.program.size * (text.size + 1)) false
    (p.searchFrom text (text.size - start) visited start).map .ofSlots

def isMatch (p : Pattern) (s : String) : Bool :=
  (p.find? s.toList.toArray 0).isSome

/-- The matches from a place on that do not overlap. A match of the empty text does not directly
follow a match; the search then goes on one character later. Every match takes a character or is
followed by one, so `fuel` need not exceed the number of places. -/
def occurrencesFrom (p : Pattern) (text : Array Char) :
    Nat → Nat → Option Nat → List Occurrence
  | 0, _, _ => []
  | fuel + 1, start, lastStop =>
    let first := p.find? text start
    let found := first.bind fun o =>
      if o.start = o.stop && lastStop = some o.stop then p.find? text (start + 1) else some o
    match found with
    | none => []
    | some o => o :: occurrencesFrom p text fuel o.stop (some o.stop)

def occurrences (p : Pattern) (text : Array Char) : List Occurrence :=
  occurrencesFrom p text (text.size + 1) 0 none

end GatedQuery.Pattern
