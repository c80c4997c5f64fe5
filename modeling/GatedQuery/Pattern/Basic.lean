import GatedQuery.Pattern.Footprint.Automaton
import GatedQuery.Pattern.Program
import GatedQuery.Pattern.Reader.Expression

/-! A pattern is the program of a regular expression together with the names of its groups. A text is no
pattern if it cannot be read, or if what it describes is nested too deeply or is too large. -/

namespace GatedQuery

/-- A regular expression that is ready to be searched for. Slots 0 and 1 of the program hold the
match as a whole. -/
structure Pattern where
  program : Array Pattern.Instruction
  /-- The names of groups and their numbers. -/
  names : List (String × Nat)

namespace Pattern

def ofOutline (o : Outline) (names : List (String × Nat)) : Pattern :=
  ⟨(Program.ofOutline (.capture 0 o)).toArray, names⟩

def ofText? (s : String) : Option Pattern := do
  let (e, state) ← (Reader.expression (Reader.nestingLimit + 1)).run
    ⟨s.toList, Flags.initial, 0, []⟩
  if state.rest.isEmpty && e.height ≤ Reader.nestingLimit then
    let o := Outline.ofExpression e
    if Footprint.fits o then return ofOutline o state.names else none
  else none

end Pattern

end GatedQuery
