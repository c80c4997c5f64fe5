import GatedQuery.Json.Number
import GatedQuery.Unicode.CharSet

/-! A text is read by the JSON grammar and nothing more lenient. Arrays and objects can be nested up to
127 levels deep. An escape for half of a surrogate pair has to be followed by the other half. -/

namespace GatedQuery.Json

def isSpace (c : Char) : Bool :=
  c == ' ' || c == '\n' || c == '\t' || c == '\r'

def skipSpace (cs : List Char) : List Char :=
  cs.dropWhile isSpace

def isHex (c : Char) : Bool :=
  c.isDigit || ('a' ≤ c && c ≤ 'f') || ('A' ≤ c && c ≤ 'F')

/-- The four hexadecimal digits at the head of a text, and what follows them. -/
def hexUnit? : List Char → Option (Nat × List Char)
  | a :: b :: c :: d :: cs =>
    if [a, b, c, d].all isHex then some (Unicode.CharSet.hexValue [a, b, c, d], cs) else none
  | _ => none

/-- The character of an escape by code units, and what follows it. -/
def unicodeEscape? (cs : List Char) : Option (Char × List Char) := do
  let (high, rest) ← hexUnit? cs
  if 0xDC00 ≤ high && high ≤ 0xDFFF then none
  else if 0xD800 ≤ high && high ≤ 0xDBFF then
    match rest with
    | '\\' :: 'u' :: rest =>
      let (low, rest) ← hexUnit? rest
      if 0xDC00 ≤ low && low ≤ 0xDFFF then
        return (Char.ofNat (0x10000 + (high - 0xD800) * 0x400 + (low - 0xDC00)), rest)
      else none
    | _ => none
  else return (Char.ofNat high, rest)

def shortEscape? : Char → Option Char
  | '"' => some '"'
  | '\\' => some '\\'
  | '/' => some '/'
  | 'b' => some '\x08'
  | 'f' => some '\x0c'
  | 'n' => some '\n'
  | 'r' => some '\r'
  | 't' => some '\t'
  | _ => none

/-- The characters of a string up to its closing quote, and what follows the quote. Every character
takes one of the text, so `fuel` need not exceed the length of the text. -/
def stringBody? : Nat → List Char → Option (List Char × List Char)
  | 0, _ => none
  | _, [] => none
  | fuel + 1, c :: cs =>
    if c = '"' then some ([], cs)
    else if c = '\\' then
      match cs with
      | 'u' :: cs => do
        let (d, rest) ← unicodeEscape? cs
        let (s, rest) ← stringBody? fuel rest
        return (d :: s, rest)
      | e :: cs => do
        let d ← shortEscape? e
        let (s, rest) ← stringBody? fuel cs
        return (d :: s, rest)
      | [] => none
    else if c.toNat < 0x20 then none
    else do
      let (s, rest) ← stringBody? fuel cs
      return (c :: s, rest)

/-- The string after an opening quote, and what follows it. -/
def string? (cs : List Char) : Option (String × List Char) :=
  (stringBody? (cs.length + 1) cs).map fun (s, rest) => (String.ofList s, rest)

/-- Whether the parts of a numeral are all that the text has: JSON has no plus sign and no zeros at
the front, and a point or an exponent letter has to have digits after it. -/
def isNumber (n : Numeral) (rest : List Char) : Bool :=
  n.sign != some '+' && !n.whole.isEmpty
    && (n.whole.length == 1 || n.whole.head? != some '0')
    && !(rest.head?.any fun c => c == '.' || c == 'e' || c == 'E' || c.isDigit)

/-- The number at the head of a text, and what follows it. -/
def readNumber? (cs : List Char) : Option (Json × List Char) :=
  let (n, rest) := Numeral.span false cs
  if isNumber n rest then (number? n).map fun j => (j, rest) else none

/-- Take a word of the language from the head of a text. -/
def word? (word : String) (value : Json) (cs : List Char) : Option (Json × List Char) :=
  if word.toList.isPrefixOf cs then some (value, cs.drop word.length) else none

/-- The items of an array after its bracket, and what follows the closing one. Every item takes a
character, so `fuel` need not exceed the length of the text. -/
def items? (value : List Char → Option (Json × List Char)) :
    Nat → List Char → Option (List Json × List Char)
  | 0, _ => none
  | fuel + 1, cs => do
    let (j, rest) ← value cs
    match skipSpace rest with
    | ',' :: rest =>
      let (js, rest) ← items? value fuel rest
      return (j :: js, rest)
    | ']' :: rest => return ([j], rest)
    | _ => none

/-- The members of an object after its brace, and what follows the closing one. Every member takes a
character, so `fuel` need not exceed the length of the text. -/
def members? (value : List Char → Option (Json × List Char)) :
    Nat → List Char → Option (List (String × Json) × List Char)
  | 0, _ => none
  | fuel + 1, cs =>
    match skipSpace cs with
    | '"' :: rest => do
      let (key, rest) ← string? rest
      match skipSpace rest with
      | ':' :: rest =>
        let (j, rest) ← value rest
        match skipSpace rest with
        | ',' :: rest =>
          let (ms, rest) ← members? value fuel rest
          return ((key, j) :: ms, rest)
        | c :: rest => if c = '\x7d' then return ([(key, j)], rest) else none
        | [] => none
      | _ => none
    | _ => none

/-- The value at the head of a text, with at most `depth` levels of arrays and objects, and what
follows it. -/
def value? : Nat → List Char → Option (Json × List Char)
  | depth, cs =>
    match skipSpace cs with
    | [] => none
    | c :: rest =>
      if c = '"' then (string? rest).map fun (s, rest) => (.string s, rest)
      else if c = 'n' then word? "null" .null (c :: rest)
      else if c = 't' then word? "true" (.boolean true) (c :: rest)
      else if c = 'f' then word? "false" (.boolean false) (c :: rest)
      else if c = '-' || c.isDigit then readNumber? (c :: rest)
      else if c = '[' then
        match depth with
        | 0 => none
        | depth + 1 =>
          match skipSpace rest with
          | ']' :: rest => some (.array [], rest)
          | rest =>
            (items? (value? depth) (rest.length + 1) rest).map fun (js, rest) => (.array js, rest)
      else if c = '\x7b' then
        match depth with
        | 0 => none
        | depth + 1 =>
          match skipSpace rest with
          | d :: after =>
            if d = '\x7d' then some (.object [], after)
            else
              (members? (value? depth) (rest.length + 1) (d :: after)).map fun (ms, rest) =>
                (.object ms, rest)
          | [] => none
      else none

def nestingLimit : Nat := 127

/-- Read the value that a text is, with the repeated keys of its objects. -/
def ofText? (s : String) : Option Json := do
  let (j, rest) ← value? nestingLimit s.toList
  if (skipSpace rest).isEmpty then return j else none

end GatedQuery.Json
