import GatedQuery.Decimal.Numeral
import GatedQuery.Text.Blank
import GatedQuery.Token.Basic

/-! A scanner reads one token at a time. It skips blanks, then takes the longest token that its text
begins with. Directly after a dot a number is an integer, so that `0.1` there is two steps. After a
failure the scanner stands where reading stopped and can go on from there. -/

namespace GatedQuery

inductive ScanError where
  | unexpectedCharacter (c : Char) (position : Position)
  | unterminatedString (position : Position)
  | invalidNumber (text : String) (position : Position)
deriving DecidableEq, Repr

namespace ScanError

/-- The place of the first character that could not be read. -/
def position : ScanError → Position
  | unexpectedCharacter _ p => p
  | unterminatedString p => p
  | invalidNumber _ p => p

def message : ScanError → String
  | unexpectedCharacter c p => "unexpected character '" ++ c.toString ++ "' at " ++ p.text
  | unterminatedString p => "unterminated string starting at " ++ p.text
  | invalidNumber s p => "invalid number '" ++ s ++ "' at " ++ p.text

end ScanError

namespace Token

def startsName (c : Char) : Bool :=
  c.isAlpha || c == '_'

def continuesName (c : Char) : Bool :=
  c.isAlphanum || c == '_'

/-- What a character stands for after a backslash: itself, three letters apart. -/
def escaped (c : Char) : Char :=
  if c = 'n' then '\n' else if c = 't' then '\t' else if c = 'r' then '\r' else c

/-- The characters of a string up to its closing quote, and what follows the quote. -/
def scanString (quote : Char) : List Char → Option (List Char × List Char)
  | [] => none
  | c :: cs =>
    if c = quote then some ([], cs)
    else if c = '\\' then
      match cs with
      | [] => none
      | d :: ds => (scanString quote ds).map fun (s, rest) => (escaped d :: s, rest)
    else (scanString quote cs).map fun (s, rest) => (c :: s, rest)

/-- The token of a numeral: an integer if it has neither fraction nor exponent and fits, and else
a float, which `integerOnly` forbids. A float has to be finite. -/
def ofNumeral? (integerOnly : Bool) (n : Numeral) : Option Token :=
  let float := if n.toFloat.isFinite then some (Token.float n.toFloat) else none
  if n.isFractional then float
  else
    match n.toInt64? with
    | some i => some (.integer i)
    | none => if integerOnly then none else float

/-- Whether a numeral can start with the characters: a digit, or a sign and a digit. -/
def startsNumeral : List Char → Bool
  | c :: cs =>
    c.isDigit || ((c == '-' || c == '+') && cs.head?.any Char.isDigit)
  | [] => false

/-- The token at the head of a text that does not begin with a blank, or the failure at its first
character, and in either case what is left to read. -/
def scan (integerOnly : Bool) (position : Position) :
    List Char → Except ScanError Token × List Char
  | [] => (.ok .endOfInput, [])
  | c :: cs =>
    match Mark.ofChar? c with
    | some m => (.ok (.mark m), cs)
    | none =>
      if c = '"' || c = '\'' then
        match scanString c cs with
        | some (s, rest) => (.ok (.string (String.ofList s)), rest)
        | none => (.error (.unterminatedString position), [])
      else if startsName c then
        (.ok (.name (String.ofList ((c :: cs).takeWhile continuesName))),
          (c :: cs).dropWhile continuesName)
      else if startsNumeral (c :: cs) then
        let (n, rest) := Numeral.span integerOnly (c :: cs)
        match ofNumeral? integerOnly n with
        | some t => (.ok t, rest)
        | none => (.error (.invalidNumber n.text position), rest)
      else (.error (.unexpectedCharacter c position), c :: cs)

end Token

structure Scanner where
  /-- The characters that are left. -/
  rest : List Char
  /-- The place of the first of them. -/
  position : Position
  /-- Whether the token before them is a dot. -/
  afterDot : Bool

namespace Scanner

def ofText (s : String) : Scanner :=
  ⟨s.toList, .start, false⟩

def moveTo (s : Scanner) (rest : List Char) : Scanner :=
  { s with
    rest := rest
    position := s.position.past (s.rest.take (s.rest.length - rest.length)) }

/-- Read one token. A failure leaves the memory of the token before it as it was. -/
def next (s : Scanner) : Except ScanError PlacedToken × Scanner :=
  let s := s.moveTo (Text.dropBlanks s.rest)
  let (outcome, rest) := Token.scan s.afterDot s.position s.rest
  match outcome with
  | .ok t => (.ok ⟨t, s.position⟩, { s.moveTo rest with afterDot := t.isMark .dot })
  | .error e => (.error e, s.moveTo rest)

/-- Read tokens up to the end of the input. Every token but the last one takes at least one
character, so `fuel` need not exceed the number of characters by more than one. -/
def tokensWithin : Nat → Scanner → Except ScanError (List PlacedToken)
  | 0, _ => .ok []
  | fuel + 1, s =>
    match s.next with
    | (.error e, _) => .error e
    | (.ok ⟨.endOfInput, p⟩, _) => .ok [⟨.endOfInput, p⟩]
    | (.ok t, s) => (tokensWithin fuel s).map (t :: ·)

end Scanner

/-- The tokens of a text, of which the last one is the end of the input. -/
def tokens (s : String) : Except ScanError (List PlacedToken) :=
  (Scanner.ofText s).tokensWithin (s.toList.length + 1)

end GatedQuery
