import GatedQuery.Pattern.Reader.Bracket
import GatedQuery.Unicode.Recent

/-! Reading a pattern resolves all that depends on the flags: the case of letters, the meaning of the
anchors and of the dot, and the greed of the repetitions. -/

namespace GatedQuery.Pattern

namespace Reader

def charExpression (flags : Flags) (c : Char) (asByte : Bool) : Reader Expression := do
  if asByte && !flags.unicode && 0x80 ≤ c.toNat then failure
  return .chars (folded flags (.single c))

def atomExpression (flags : Flags) : Atom → Reader Expression
  | .char c asByte => charExpression flags c asByte
  | .chars s => return .chars s
  | .look l => return .look l

def dot (flags : Flags) : Reader Expression := do
  unless flags.unicode do failure
  let excluded : CharClass :=
    if flags.dotAll then .empty
    else if flags.carriageReturns then .union (.single '\r') (.single '\n')
    else .single '\n'
  return .chars excluded.complement

/-- Read a part that is neither a group, a class in brackets nor a repetition. -/
def primitive : Reader Expression := do
  let flags ← flags
  match ← next? with
  | some '\\' =>
    let a ← escape
    atomExpression flags a
  | some '.' =>
    let _ ← take
    dot flags
  | some '^' =>
    let _ ← take
    return .look (if flags.multiLine then .lineStart flags.carriageReturns else .textStart)
  | some '$' =>
    let _ ← take
    return .look (if flags.multiLine then .lineEnd flags.carriageReturns else .textEnd)
  | _ => charExpression flags (← take) false

/-- A part of a sequence, and whether it can be repeated: a directive cannot. -/
structure Part where
  expression : Expression
  repeatable : Bool

/-- Repeat the last part that was read. Parts are in reverse order. -/
def repeatLast (least : Nat) (most : Option Nat) (isLazy : Bool) : List Part → Reader (List Part)
  | p :: before => do
    unless p.repeatable do failure
    return ⟨.repeated p.expression least most (isLazy == (← flags).swapGreed), true⟩ :: before
  | [] => failure

/-- Take the question mark that makes a repetition lazy, if it comes next. -/
def lazyMark : Reader Bool := do
  if (← next?) = some '?' then
    let _ ← take
    return true
  else return false

/-- Read a count of repetitions, which is below `2 ^ 32`. -/
def count : Reader Nat := do
  setRest (Text.dropBlanks (← rest))
  let digits ← takeWhile Char.isDigit
  let _ ← takeWhile Text.isBlank
  let n := Nat.ofDigitChars 10 digits 0
  if digits.isEmpty || Nat.pow 2 32 ≤ n then failure
  return n

def countBounds : Reader (Nat × Option Nat) := do
  let _ ← takeSpaced
  let least ← count
  let most ←
    if ← takeIf ',' then
      if (← next?) = some '\x7d' then pure none else pure (some (← count))
    else pure (some least)
  unless ← takeIf '\x7d' do failure
  if most.any (· < least) then failure
  return (least, most)

/-- The bounds of a repetition that one character stands for. -/
def markBounds? : Char → Option (Nat × Option Nat)
  | '?' => some (0, some 1)
  | '*' => some (0, none)
  | '+' => some (1, none)
  | _ => none

/-- Read the bounds of a repetition, if one comes next. -/
def repetition? : Reader (Option (Nat × Option Nat)) := do
  match ← next? with
  | some '\x7b' => return some (← countBounds)
  | some c =>
    if let some bounds := markBounds? c then
      let _ ← take
      return some bounds
    return none
  | none => return none

def nestingLimit : Nat := 250

/-- Read parts up to a bar, a closing parenthesis or the end. `group` reads a group or a directive.
Parts are in reverse order. -/
def parts (group : Reader Part) : Nat → List Part → Reader Expression
  | 0, _ => failure
  | fuel + 1, before => do
    skipSpace
    match ← next? with
    | none | some ')' | some '|' =>
      return .ofItems (before.reverse.map Part.expression)
    | some '(' =>
      let p ← group
      parts group fuel (p :: before)
    | some '[' =>
      let s ← bracketed nestingLimit
      parts group fuel (⟨.chars s, true⟩ :: before)
    | some _ =>
      match ← repetition? with
      | some (least, most) =>
        let before ← repeatLast least most (← lazyMark) before
        parts group fuel before
      | none =>
        let e ← primitive
        parts group fuel (⟨e, true⟩ :: before)

/-- Read branches with bars between them. Branches are in reverse order. -/
def branches (group : Reader Part) : Nat → List Expression → Reader Expression
  | 0, _ => failure
  | fuel + 1, before => do
    let e ← parts group ((← rest).length + 1) []
    if (← next?) = some '|' then
      let _ ← take
      branches group fuel (e :: before)
    else return .ofBranches (e :: before).reverse

def startsGroupName (c : Char) : Bool :=
  c == '_' || Unicode.isAlphabetic c

def continuesGroupName (c : Char) : Bool :=
  startsGroupName c || c == '.' || c == '[' || c == ']'
    || Unicode.isNumeric c

def nextGroup : Reader Nat := do
  let s ← get
  set { s with groups := s.groups + 1 }
  return s.groups + 1

/-- Read the name of a group and the bracket after it. No other group has the name. -/
def groupName (cs : List Char) (index : Nat) : Reader Unit := do
  let (name, cs) ← (splitAt? ['>'] cs : Option (List Char × List Char))
  match name with
  | [] => failure
  | c :: more =>
    let text := String.ofList name
    if !startsGroupName c || !more.all continuesGroupName then failure
    if ((← get).names.lookup text).isSome then failure
    modify fun s => { s with rest := cs, names := (text, index) :: s.names }

/-- Read what a group holds and its closing parenthesis. The flags of the group end with it. -/
def groupBody (body : Reader Expression) (outer : Flags) : Reader Expression := do
  let e ← body
  takeChar ')'
  setFlags outer
  return e

def captured (body : Reader Expression) (name : Option (List Char)) : Reader Part := do
  let index ← nextGroup
  if let some cs := name then groupName cs index
  let e ← groupBody body (← flags)
  return ⟨.capture index e, true⟩

/-- Whether the text after a question mark makes a group look around. -/
def looksAround : List Char → Bool
  | '=' :: _ | '!' :: _ | '<' :: '=' :: _ | '<' :: '!' :: _ => true
  | _ => false

/-- Read a group with flags, or a directive that sets the flags up to the end of the group around
it. -/
def flagged (body : Reader Expression) (cs : List Char) : Reader Part := do
  let outer ← flags
  let isFlag := fun c => c != ':' && c != ')'
  let letters := cs.takeWhile isFlag
  let inner ← (outer.directive? letters : Option Flags)
  setRest (cs.dropWhile isFlag)
  if (← take) = ':' then
    setFlags inner
    let e ← groupBody body outer
    return ⟨.group e, true⟩
  else
    if letters.isEmpty then failure
    setFlags inner
    return ⟨.empty, false⟩

/-- Read a group or a directive. `body` reads what a group holds. -/
def group (body : Reader Expression) : Reader Part := do
  let _ ← takeSpaced
  match ← rest with
  | '?' :: 'P' :: '<' :: cs => captured body (some cs)
  | '?' :: cs =>
    if looksAround cs then failure
    match cs with
    | '<' :: cs => captured body (some cs)
    | _ => flagged body cs
  | _ => captured body none

/-- Read an expression up to a closing parenthesis or the end, with at most `depth` levels of
groups. -/
def expression : Nat → Reader Expression
  | 0 => failure
  | depth + 1 => do
    branches (group (expression depth)) ((← rest).length + 1) []

end Reader

end GatedQuery.Pattern
