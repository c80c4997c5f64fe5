import GatedQuery.Text.Blank

/-! A reader takes characters from a pattern and knows the flags that hold at its place. Nothing is said
about why a text is not a pattern. -/

namespace GatedQuery.Pattern

/-- The switches that a pattern can set for the rest of a group. -/
structure Flags where
  /-- Letters that differ only in case are the same. -/
  ignoreCase : Bool
  /-- The anchors `^` and `$` hold at the edges of lines. -/
  multiLine : Bool
  /-- The dot accepts every character. -/
  dotAll : Bool
  /-- Repetitions are greedy when they are marked, and lazy when they are not. -/
  swapGreed : Bool
  /-- Blanks and comments stand between the parts of the pattern. -/
  verbose : Bool
  /-- A carriage return ends lines too. -/
  carriageReturns : Bool
  /-- Classes hold characters beyond ASCII. -/
  unicode : Bool

namespace Flags

def initial : Flags := ⟨false, false, false, false, false, false, true⟩

/-- The flags with the one of a letter set to `value`. -/
def set? (flags : Flags) (value : Bool) : Char → Option Flags
  | 'i' => some { flags with ignoreCase := value }
  | 'm' => some { flags with multiLine := value }
  | 's' => some { flags with dotAll := value }
  | 'U' => some { flags with swapGreed := value }
  | 'x' => some { flags with verbose := value }
  | 'R' => some { flags with carriageReturns := value }
  | 'u' => some { flags with unicode := value }
  | _ => none

/-- Set the flags of letters one by one. After a hyphen they are cleared. -/
def setAll? (flags : Flags) (value : Bool) : List Char → Option Flags
  | [] => some flags
  | '-' :: cs => flags.setAll? false cs
  | c :: cs => do (← flags.set? value c).setAll? value cs

/-- The flags after a directive. It names no flag twice and does not end with a hyphen. -/
def directive? (flags : Flags) (cs : List Char) : Option Flags :=
  if cs.Nodup && cs.getLast? != some '-' then flags.setAll? true cs else none

end Flags

/-- What is left of a pattern, and what was read of it. -/
structure ReaderState where
  rest : List Char
  flags : Flags
  /-- How many groups are numbered so far. -/
  groups : Nat
  /-- The names of groups and their numbers, last one first. -/
  names : List (String × Nat)

/-- A reader takes characters from a pattern, or fails. -/
abbrev Reader := StateT ReaderState Option

namespace Reader

def flags : Reader Flags := do
  return (← get).flags

def setFlags (flags : Flags) : Reader Unit :=
  modify fun s => { s with flags := flags }

def rest : Reader (List Char) := do
  return (← get).rest

def setRest (rest : List Char) : Reader Unit :=
  modify fun s => { s with rest := rest }

def next? : Reader (Option Char) := do
  return (← rest).head?

/-- Drop blanks and comments, which start with a number sign and end with the line. -/
def dropComments (inComment : Bool) : List Char → List Char
  | [] => []
  | c :: cs =>
    if inComment then dropComments (c != '\n') cs
    else if Text.isBlank c then dropComments false cs
    else if c = '#' then dropComments true cs
    else c :: cs

/-- Skip what a verbose pattern has between its parts. -/
def skipSpace : Reader Unit := do
  if (← flags).verbose then setRest (dropComments false (← rest))

def take : Reader Char := do
  match ← rest with
  | [] => failure
  | c :: cs =>
    setRest cs
    return c

def takeChar (c : Char) : Reader Unit := do
  if (← take) != c then failure

def takeSpaced : Reader Char := do
  let c ← take
  skipSpace
  return c

/-- Take characters as long as they pass the test, each with the space after it. -/
def takeWhile (test : Char → Bool) : Reader (List Char) := do
  go ((← rest).length + 1)
where
  /-- Every round takes a character. -/
  go : Nat → Reader (List Char)
  | 0 => return []
  | fuel + 1 => do
    match ← next? with
    | some c =>
      if test c then
        let c ← takeSpaced
        return c :: (← go fuel)
      else return []
    | none => return []

/-- Take the character `c` with the space after it, if it comes next. -/
def takeIf (c : Char) : Reader Bool := do
  if (← next?) = some c then
    let _ ← takeSpaced
    return true
  else return false

/-- The characters before the first occurrence of `mark`, and those after it. -/
def splitAt? (mark : List Char) : List Char → Option (List Char × List Char)
  | [] => none
  | c :: cs =>
    if mark.isPrefixOf (c :: cs) then some ([], (c :: cs).drop mark.length)
    else (splitAt? mark cs).map fun (before, after) => (c :: before, after)

end Reader

end GatedQuery.Pattern
