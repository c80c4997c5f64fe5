import GatedQuery.Decimal.Layout
import GatedQuery.Text.Position
import GatedQuery.Text.Quoted

/-! A query is read as a list of tokens, each at the place of its first character. The words `true`,
`false` and `null` are plain names here; only an argument list reads them as literals. -/

namespace GatedQuery

inductive Mark where
  | leftParen
  | rightParen
  | leftBrace
  | rightBrace
  | leftBracket
  | rightBracket
  | comma
  | colon
  | dot
  | equals
deriving DecidableEq, Repr

namespace Mark

def char : Mark → Char
  | leftParen => '('
  | rightParen => ')'
  | leftBrace => '\x7b'
  | rightBrace => '\x7d'
  | leftBracket => '['
  | rightBracket => ']'
  | comma => ','
  | colon => ':'
  | dot => '.'
  | equals => '='

def ofChar? (c : Char) : Option Mark :=
  [leftParen, rightParen, leftBrace, rightBrace, leftBracket, rightBracket, comma, colon, dot,
    equals].find? fun m => m.char == c

theorem ofChar?_char (m : Mark) : ofChar? m.char = some m := by
  cases m <;> decide

end Mark

inductive Token where
  /-- The name of a member, an entry point, an alias or an argument. -/
  | name (s : String)
  | string (s : String)
  | integer (n : Int64)
  /-- A number with a fraction or an exponent, or one that is too large for an integer. -/
  | float (x : Float)
  | mark (m : Mark)
  | endOfInput

namespace Token

def text : Token → String
  | name s => "'" ++ s ++ "'"
  | string s => Text.shown s
  | integer n => toString n.toInt
  | float x => queryFloat.write x
  | mark m => String.ofList ['\'', m.char, '\'']
  | endOfInput => "end of input"

def isMark (m : Mark) : Token → Bool
  | mark m' => m' == m
  | _ => false

def isName : Token → Bool
  | name _ => true
  | _ => false

end Token

structure PlacedToken where
  token : Token
  position : Position

end GatedQuery
