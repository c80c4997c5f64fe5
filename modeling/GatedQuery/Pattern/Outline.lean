import GatedQuery.Pattern.Expression

/-! An outline says the same as an expression and is put together as far as that is possible without a
look at the matches: texts next to each other are one text, sequences and choices are not nested in
their like, a choice between characters is a class, and what all branches of a choice start with
stands before the choice. -/

namespace GatedQuery.Pattern

open Unicode (CharSet)

inductive Outline where
  | empty
  /-- Matches one text, which is not empty. -/
  | text (cs : List Char)
  /-- Matches one character of a set, which does not have exactly one member. -/
  | chars (s : CharSet)
  | look (l : Look)
  | sequence (items : List Outline)
  | choice (branches : List Outline)
  | repeated (body : Outline) (least : Nat) (most : Option Nat) (greedy : Bool)
  | capture (index : Nat) (body : Outline)

namespace Outline

mutual

def same : Outline → Outline → Bool
  | empty, empty => true
  | text cs, text ds => cs == ds
  | chars s, chars t => s == t
  | look l, look m => l == m
  | sequence items, sequence others => allSame items others
  | choice branches, choice others => allSame branches others
  | repeated body least most greedy, repeated other least' most' greedy' =>
    least == least' && most == most' && greedy == greedy' && body.same other
  | capture index body, capture index' other => index == index' && body.same other
  | _, _ => false

def allSame : List Outline → List Outline → Bool
  | [], [] => true
  | o :: os, p :: ps => o.same p && allSame os ps
  | _, _ => false

end

mutual

/-- Whether the outline takes no character, so that it matches the empty text only. -/
def takesNothing : Outline → Bool
  | empty | look _ => true
  | text _ | chars _ => false
  | sequence items => allTakeNothing items
  | choice branches => allTakeNothing branches
  | repeated body _ _ _ => body.takesNothing
  | capture _ body => body.takesNothing

def allTakeNothing : List Outline → Bool
  | [] => true
  | o :: os => o.takesNothing && allTakeNothing os

end

mutual

/-- Whether every match takes a character. Nothing is known of what holds a set without members. -/
def mustTake? : Outline → Option Bool
  | empty | look _ => some false
  | text _ => some true
  | chars s => if s.isEmpty then none else some true
  | sequence items => someMustTake? items
  | choice branches => allMustTake? branches
  | repeated body least _ _ => body.mustTake?.map (least != 0 && ·)
  | capture _ body => body.mustTake?

def someMustTake? : List Outline → Option Bool
  | [] => some false
  | o :: os => do return (← o.mustTake?) || (← someMustTake? os)

def allMustTake? : List Outline → Option Bool
  | [] => some true
  | o :: os => do return (← o.mustTake?) && (← allMustTake? os)

end

def ofSet (s : CharSet) : Outline :=
  match s.single? with
  | some n => text [Char.ofNat n]
  | none => chars s

/-- The items of an outline that is part of a sequence. -/
def items : Outline → List Outline
  | empty => []
  | sequence items => items
  | o => [o]

/-- The branches of an outline that is part of a choice. -/
def branches : Outline → List Outline
  | choice branches => branches
  | o => [o]

def joinTexts : List Outline → List Outline
  | [] => []
  | text cs :: os =>
    match joinTexts os with
    | text ds :: ps => text (cs ++ ds) :: ps
    | ps => text cs :: ps
  | o :: os => o :: joinTexts os

def ofItems (os : List Outline) : Outline :=
  match joinTexts (os.flatMap items) with
  | [] => empty
  | [o] => o
  | os => sequence os

def text? : Outline → Option (List Char)
  | text cs => some cs
  | _ => none

def char? : Outline → Option Char
  | text [c] => some c
  | _ => none

def members? : Outline → Option CharSet
  | chars s => some s
  | _ => none

/-- The set of what the branches take, if they are all single characters or all classes. -/
def mergedSet? (branches : List Outline) : Option CharSet :=
  (branches.mapM char?).map (fun cs => .ofCodes (cs.map Char.toNat))
    <|> (branches.mapM members?).map .unionAll

/-- Branches that have nothing in common, as a choice. -/
def ofDistinct (os : List Outline) : Outline :=
  match os.flatMap branches with
  | [o] => o
  | os =>
    match mergedSet? os with
    | some s => ofSet s
    | none => choice os

/-- What two lists start with in common. -/
def common : List Outline → List Outline → List Outline
  | o :: os, p :: ps => if o.same p then o :: common os ps else []
  | _, _ => []

def sequence? : Outline → Option (List Outline)
  | sequence items => some items
  | _ => none

/-- What all branches start with, if they are sequences, and the rests of them. -/
def sharedStart? (branches : List Outline) : Option (List Outline × List (List Outline)) := do
  match ← branches.mapM sequence? with
  | [] => none
  | first :: others =>
    let start := others.foldl common first
    if start.isEmpty then none
    else return (start, (first :: others).map (·.drop start.length))

def ofBranches (os : List Outline) : Outline :=
  match ofDistinct os with
  | choice os =>
    match sharedStart? os with
    | some (start, rests) => ofItems (start ++ [ofDistinct (rests.map ofItems)])
    | none => choice os
  | o => o

/-- The bounds of a repetition that is worth running: what takes no character is matched at most
once. -/
def bounds (body : Outline) (least : Nat) (most : Option Nat) : Nat × Option Nat :=
  if body.takesNothing then (min least 1, some ((most.getD 1).min 1)) else (least, most)

def ofRepetition (body : Outline) (least : Nat) (most : Option Nat) (greedy : Bool) : Outline :=
  match body.bounds least most with
  | (0, some 0) => empty
  | (1, some 1) => body
  | (least, most) => repeated body least most greedy

mutual

def ofExpression : Expression → Outline
  | .empty => empty
  | .chars s => ofSet s.members
  | .look l => look l
  | .sequence items => ofItems (ofExpressions items)
  | .choice branches => ofBranches (ofExpressions branches)
  | .repeated body least most greedy => ofRepetition (ofExpression body) least most greedy
  | .group body => ofExpression body
  | .capture index body => capture index (ofExpression body)

def ofExpressions : List Expression → List Outline
  | [] => []
  | e :: es => ofExpression e :: ofExpressions es

end

end Outline

end GatedQuery.Pattern
