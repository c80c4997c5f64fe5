import GatedQuery.Pattern.Outline

/-! A program is a list of instructions. Branches go to instructions that are named by their distance,
so that the program of a sequence is the programs of its items one after another. -/

namespace GatedQuery.Pattern

/-- One instruction of a program. Distances are counted from the instruction itself. -/
inductive Instruction where
  /-- Take a character of the set. -/
  | char (s : Unicode.CharSet)
  /-- Go on if the condition holds here. -/
  | look (l : Look)
  /-- Remember this place under a number. -/
  | save (slot : Nat)
  /-- Go on at the first distance and, if that does not lead to a match, at the second. -/
  | branch (first second : Int)
  | jump (distance : Int)

namespace Program

/-- A branch between two distances, of which `first` is preferred if `greedy`. -/
def prefer (greedy : Bool) (first second : Int) : Instruction :=
  if greedy then .branch first second else .branch second first

/-- The program of an optional part, with `more` of the program inside the option. -/
def optional (greedy : Bool) (code : List Instruction) : List Instruction :=
  prefer greedy 1 (code.length + 1) :: code

def oneOrMore (greedy : Bool) (code : List Instruction) : List Instruction :=
  code ++ [prefer greedy (-code.length) 1]

/-- The program of a part any number of times. Unless the part must take a character, it is run once
before it is asked for again, so that a round without progress ends the loop. -/
def zeroOrMore (greedy mustTake : Bool) (code : List Instruction) : List Instruction :=
  if mustTake then prefer greedy 1 (code.length + 2) :: code ++ [.jump (-(code.length + 1))]
  else optional greedy (oneOrMore greedy code)

def times (code : List Instruction) (count : Nat) : List Instruction :=
  (List.replicate count code).flatten

/-- The program of a part up to `count` times. Every round can end with a branch past all rounds. -/
def upTo (greedy : Bool) (code : List Instruction) (count : Nat) : List Instruction :=
  (List.range count).flatMap fun done =>
    let toEnd : Nat := (count - done) * (code.length + 1)
    prefer greedy 1 toEnd :: code

def repetition (greedy mustTake : Bool) (code : List Instruction) :
    Nat → Option Nat → List Instruction
  | 0, none => zeroOrMore greedy mustTake code
  | least + 1, none => times code least ++ oneOrMore greedy code
  | least, some most => times code least ++ upTo greedy code (most - least)

mutual

def ofOutline : Outline → List Instruction
  | .empty => []
  | .text cs => cs.map fun c => .char (.range c.toNat c.toNat)
  | .chars s => [.char s]
  | .look l => [.look l]
  | .sequence items => ofSequence items
  | .choice branches => ofChoice branches
  | .repeated body least most greedy =>
    repetition greedy (body.mustTake? = some true) (ofOutline body) least most
  | .capture i body => .save (2 * i) :: ofOutline body ++ [.save (2 * i + 1)]

def ofSequence : List Outline → List Instruction
  | [] => []
  | o :: os => ofOutline o ++ ofSequence os

def ofChoice : List Outline → List Instruction
  | [] => []
  | [o] => ofOutline o
  | o :: p :: os =>
    let code := ofOutline o
    let rest := ofChoice (p :: os)
    .branch 1 (code.length + 2) :: code ++ .jump (rest.length + 1) :: rest

end

end Program

end GatedQuery.Pattern
