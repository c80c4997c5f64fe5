import GatedQuery.Pattern.Expression
import GatedQuery.Pattern.PropertyName
import GatedQuery.Pattern.Reader.Basic

/-! What follows a backslash stands for a character, for a class or for a condition on the place. -/

namespace GatedQuery.Pattern

namespace Reader

def charOf? (n : Nat) : Option Char :=
  if n.isValidChar then some (Char.ofNat n) else none

def isHex (c : Char) : Bool :=
  c.isDigit || ('a' ≤ c && c ≤ 'f') || ('A' ≤ c && c ≤ 'F')

/-- Something that one escape or one plain character stands for. -/
inductive Atom where
  /-- A character. It may be written by the two digits of a byte. -/
  | char (c : Char) (asByte : Bool)
  | chars (s : CharClass)
  | look (l : Look)

def bracedHex : Reader (List Char) := do
  let _ ← takeSpaced
  let digits ← takeWhile isHex
  if digits.isEmpty then failure
  if ← takeIf '\x7d' then return digits else failure

def fixedHex : Nat → Reader (List Char)
  | 0 => return []
  | count + 1 => do
    let c ← takeSpaced
    if isHex c then return c :: (← fixedHex count) else failure

/-- Read a character that is written by `count` hexadecimal digits, or by any number of them between
braces. -/
def hexAtom (count : Nat) : Reader Atom := do
  let _ ← takeSpaced
  let braced := (← next?) = some '\x7b'
  let digits ← if braced then bracedHex else fixedHex count
  match charOf? (Unicode.CharSet.hexValue digits) with
  | some c => return .char c (!braced && count == 2)
  | none => failure

/-- The class that stands between the braces of a property, and whether its complement is meant. -/
def propertyClass? (cs : List Char) : Option (CharClass × Bool) := do
  let valueClass? := fun (p : List Char × List Char) =>
    PropertyName.valueClass? (String.ofList p.1) (String.ofList p.2)
  if let some p := splitAt? ['!', '='] cs then return (← valueClass? p, true)
  if let some p := splitAt? [':'] cs <|> splitAt? ['='] cs then return (← valueClass? p, false)
  return (← PropertyName.class? (String.ofList cs), false)

def folded (flags : Flags) (s : CharClass) : CharClass :=
  if flags.ignoreCase then (if flags.unicode then s.fold else s.foldAscii) else s

/-- The class, negated if asked for. Beyond ASCII nothing can be said without the flag for it. -/
def negated (flags : Flags) (negate : Bool) (s : CharClass) : Reader CharClass := do
  if negate && !flags.unicode then failure
  return s.negateIf negate

def propertyAtom (negate : Bool) : Reader Atom := do
  let flags ← flags
  let _ ← takeSpaced
  let name ←
    if (← next?) = some '\x7b' then do
      let _ ← takeSpaced
      let name ← takeWhile (· != '\x7d')
      takeChar '\x7d'
      pure name
    else do
      let c ← takeSpaced
      if c = '\\' then failure
      pure [c]
  match propertyClass? name with
  | some (s, other) =>
    if flags.unicode then return .chars ((folded flags s).negateIf (negate != other)) else failure
  | none => failure

/-- Whether `c` can stand in the name of a word boundary. -/
def isBoundaryLetter (c : Char) : Bool :=
  c.isAlpha || c == '-'

/-- Read the boundary that stands between braces after the letter of a word boundary. Braces that
hold a number are left alone, as they are a repetition. -/
def boundary (words : WordChars) : Reader Look := do
  let before ← rest
  if (← next?) != some '\x7b' then return .wordBoundary words
  let _ ← takeSpaced
  match ← next? with
  | none => failure
  | some c =>
    if !isBoundaryLetter c then
      setRest before
      return .wordBoundary words
    let name ← takeWhile isBoundaryLetter
    takeChar '\x7d'
    match String.ofList name with
    | "start" => return .wordStart words
    | "end" => return .wordEnd words
    | "start-half" => return .noWordBefore words
    | "end-half" => return .noWordAfter words
    | _ => failure

/-- The characters that mean something else when they are not escaped. -/
def isMeta (c : Char) : Bool :=
  "\\.+*?()|[]\x7b\x7d^$#&-~".toList.contains c

/-- Whether an escaped character stands for itself: it is of ASCII and has no meaning of its own. -/
def standsForItself (c : Char) : Bool :=
  isMeta c || (c.toNat < 0x80 && !c.isAlphanum && c != '<' && c != '>')

def controlChar? : Char → Option Char
  | 'a' => some '\x07'
  | 'f' => some '\x0c'
  | 't' => some '\t'
  | 'n' => some '\n'
  | 'r' => some '\r'
  | 'v' => some '\x0b'
  | _ => none

def letterClass? (unicode : Bool) : Char → Option CharClass
  | 'd' => some (if unicode then .digits else .asciiDigits)
  | 's' => some (if unicode then .blanks else .asciiBlanks)
  | 'w' => some (if unicode then .wordChars else .asciiWordChars)
  | _ => none

def escape : Reader Atom := do
  let flags ← flags
  let words := if flags.unicode then WordChars.all else .ascii
  let _ ← take
  match ← next? with
  | none => failure
  | some 'x' => hexAtom 2
  | some 'u' => hexAtom 4
  | some 'U' => hexAtom 8
  | some 'p' => propertyAtom false
  | some 'P' => propertyAtom true
  | some c =>
    let _ ← take
    if standsForItself c then return .char c false
    if let some d := controlChar? c then return .char d false
    if let some s := letterClass? flags.unicode c then return .chars s
    if let some s := letterClass? flags.unicode c.toLower then
      return .chars (← negated flags true s)
    match c with
    | 'A' => return .look .textStart
    | 'z' => return .look .textEnd
    | 'b' => return .look (← boundary words)
    | 'B' => return .look (.noWordBoundary words)
    | '<' => return .look (.wordStart words)
    | '>' => return .look (.wordEnd words)
    | _ => failure

end Reader

end GatedQuery.Pattern
