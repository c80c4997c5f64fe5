import GatedQuery.Pattern.Expression

/-! A pattern is accepted if the automata that run over the bytes of a text fit into a fixed amount of
memory. A state takes 32 bytes, a transition of a state with several of them 8 bytes, and a way on
from a branching state 4 bytes. Only these amounts are computed. States have numbers nevertheless,
because the automaton of a class shares states by a small table whose slots depend on them. -/

namespace GatedQuery.Pattern

inductive Direction where
  | forwards
  | backwards
deriving DecidableEq, Repr

namespace Direction

/-- The condition that holds only where an automaton starts to read a whole text. -/
def edge : Direction → Look
  | forwards => .textStart
  | backwards => .textEnd

end Direction

structure Footprint where
  states : Nat
  /-- The bytes of the lists that states refer to. -/
  lists : Nat

namespace Footprint

def stateSize : Nat := 32

/-- The bytes of a transition of a state that has several of them. -/
def transitionSize : Nat := 8

def wayOnSize : Nat := 4

def limit : Nat := 10 * Nat.pow 2 20

def size (f : Footprint) : Nat :=
  stateSize * f.states + f.lists

/-- A computation that adds states to an automaton, and fails when that grows too large. -/
abbrev Builder := StateT Footprint Option

/-- Add so many states with lists of `lists` bytes. The result is the number of the first one. -/
def add (states lists : Nat) : Builder Nat := fun f =>
  let g : Footprint := ⟨f.states + states, f.lists + lists⟩
  if g.size ≤ limit then some (f.states, g) else none

/-- What the last state of a part of an automaton is like. -/
inductive Ending where
  /-- It has one way on, which takes no list. -/
  | plain
  /-- It is a branching state. -/
  | branching
deriving DecidableEq, Repr

/-- Add so many states with lists of `lists` bytes. The last one has one way on. -/
def plainly (states lists : Nat) : Builder Ending := do
  let _ ← add states lists
  return .plain

def link (e : Ending) : Builder Unit := do
  if e = .branching then
    let _ ← add 0 wayOnSize

end Footprint

end GatedQuery.Pattern
