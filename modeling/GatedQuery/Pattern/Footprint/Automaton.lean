import GatedQuery.Pattern.Footprint.Encodings
import GatedQuery.Pattern.Footprint.Words
import GatedQuery.Pattern.Outline

/-! There are two automata. One reads a text forwards and remembers where groups are, the other one
reads it backwards. Both must be small enough. -/

namespace GatedQuery.Pattern

namespace Outline

mutual

/-- Whether every match begins at the edge of the text. -/
def atEdge (d : Direction) : Outline → Bool
  | look l => l == d.edge
  | sequence items => someAtEdge d items
  | choice branches => allAtEdge d branches
  | repeated body least _ _ => least != 0 && body.atEdge d
  | capture _ body => body.atEdge d
  | _ => false

/-- Whether an item that is reached before a character is taken begins at the edge of the text. -/
def someAtEdge (d : Direction) : List Outline → Bool
  | [] => false
  | o :: os =>
    match d with
    | .forwards => o.atEdge d || (o.takesNothing && someAtEdge d os)
    | .backwards => someAtEdge d os || (allTakeNothing os && o.atEdge d)

/-- Whether all branches begin at the edge of the text. -/
def allAtEdge (d : Direction) : List Outline → Bool
  | [] => true
  | o :: os => o.atEdge d && allAtEdge d os

end

end Outline

namespace Footprint

/-- Add a part `count` times, after a part with the ending `e`. -/
def addTimes (part : Builder Ending) : Nat → Ending → Builder Ending
  | 0, e => return e
  | count + 1, e => do
    let next ← part
    link e
    addTimes part count next

def addExactly (part : Builder Ending) : Nat → Builder Ending
  | 0 => plainly 1 0
  | count + 1 => do addTimes part count (← part)

/-- Add a branching state that leads to a part or past it. -/
def addOption (part : Builder Ending) : Builder Ending := do
  let _ ← add 1 (2 * wayOnSize)
  part

/-- Add a part any number of times. `mustTake` says that every match of it takes a character. -/
def addAnyTimes (part : Builder Ending) (mustTake : Bool) : Builder Ending := do
  if mustTake then
    let _ ← add 1 wayOnSize
    link (← part)
    return .branching
  else
    link (← part)
    plainly 3 (4 * wayOnSize)

def addOnceOrMore (part : Builder Ending) : Builder Ending := do
  link (← part)
  let _ ← add 1 wayOnSize
  return .branching

def addRepetition (part : Builder Ending) (mustTake : Bool) :
    Nat → Option Nat → Builder Ending
  | 0, none => addAnyTimes part mustTake
  | 1, none => addOnceOrMore part
  | least + 1, none => do
    let e ← addExactly part least
    let last ← addOnceOrMore part
    link e
    return last
  | 0, some 1 => do
    link (← addOption part)
    plainly 1 0
  | least, some most => do
    let e ← addExactly part least
    if most = least then return e
    let _ ← add 1 0
    link (← addTimes (addOption part) (most - least) e)
    return .plain

mutual

def addOutline (d : Direction) : Outline → Builder Ending
  | .empty | .look _ => plainly 1 0
  | .text cs => plainly (bytes d cs).length 0
  | .chars s => addSet d s
  | .sequence items => addSequence d items
  | .choice branches =>
    match branches.mapM Outline.text? with
    | some words => addWords (words.map (bytes d))
    | none => addBranches d 0 branches
  | .repeated body least most _ =>
    addRepetition (addOutline d body) (body.mustTake? = some true) least most
  | .capture _ body =>
    match d with
    | .forwards => do
      let _ ← add 1 0
      link (← addOutline d body)
      plainly 1 0
    | .backwards => addOutline d body

/-- Add the states of outlines one after another, in the order in which they are read. -/
def addSequence (d : Direction) : List Outline → Builder Ending
  | [] => plainly 1 0
  | [o] => addOutline d o
  | o :: os =>
    match d with
    | .forwards => do
      let e ← addOutline d o
      let last ← addSequence d os
      link e
      return last
    | .backwards => do
      let e ← addSequence d os
      let last ← addOutline d o
      link e
      return last

/-- Add the states of branches, of which `count` are there already. With the second one come a state
that leads to the branches and a state in which they end. -/
def addBranches (d : Direction) (count : Nat) : List Outline → Builder Ending
  | [] => return .plain
  | o :: os => do
    let e ← addOutline d o
    if count = 1 then
      let _ ← add 2 0
    let _ ← add 0 wayOnSize
    link e
    addBranches d (count + 1) os

end

/-- Build the whole automaton. Unless matches begin at the edge of the text, it starts with a loop
that skips bytes. -/
def addAutomaton (d : Direction) (o : Outline) : Builder Unit := do
  if o.atEdge d then
    let _ ← add 1 0
  else
    let _ ← add 3 (transitionSize + 2 * wayOnSize)
  link (← addOutline d (.capture 0 o))
  let _ ← add 1 0

/-- Whether both automata of an outline are small enough. -/
def fits (o : Outline) : Bool :=
  [Direction.forwards, Direction.backwards].all fun d => ((addAutomaton d o).run ⟨0, 0⟩).isSome

end Footprint

end GatedQuery.Pattern
