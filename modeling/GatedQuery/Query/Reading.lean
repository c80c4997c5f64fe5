import GatedQuery.Query.Basic
import GatedQuery.Text.Casing
import GatedQuery.Token.Scan

/-! A query is read from a stream of tokens with one token of lookahead. Only an alias and a named
argument need a second one, to tell a name from a name that a colon follows. A reader that fails
leaves the stream at the token that it refused. -/

namespace GatedQuery

/-- What a reader was looking for. -/
inductive Expectation where
  | identifier
  | leftBrace
  | endOfInput
  | commaOrBrace
  | listItem
  | commaOrBracket
  | step
  | indexOrSlice
  | rightBracket
  | colon
  | commaOrParen
  | literal
deriving DecidableEq, Repr

namespace Expectation

def text : Expectation → String
  | identifier => "identifier"
  | leftBrace => "'\x7b'"
  | endOfInput => "end of input"
  | commaOrBrace => "',' or '\x7d'"
  | listItem => "field, '\x7b' or '['"
  | commaOrBracket => "',' or ']'"
  | step => "attribute, method, index or slice"
  | indexOrSlice => "index or slice"
  | rightBracket => "']'"
  | colon => "':'"
  | commaOrParen => "',' or ')'"
  | literal => "literal"

end Expectation

/-- Why a text is not a query. -/
inductive QueryError where
  | scan (e : ScanError)
  | unexpected (expected : Expectation) (found : Token) (position : Position)
  | duplicateKey (key : String) (position first : Position)
  | positionalAfterNamed (position : Position)
  | duplicateArgument (name : String) (position : Position)
  | zeroStep (position : Position)

namespace QueryError

def position : QueryError → Position
  | scan e => e.position
  | unexpected _ _ p => p
  | duplicateKey _ p _ => p
  | positionalAfterNamed p => p
  | duplicateArgument _ p => p
  | zeroStep p => p

def message : QueryError → String
  | scan e => e.message
  | unexpected expected found p =>
    "expected " ++ expected.text ++ ", found " ++ found.text ++ " at " ++ p.text
  | duplicateKey key p first =>
    "duplicate key '" ++ key ++ "' at " ++ p.text ++ " (first declared at " ++ first.text ++ ")"
  | positionalAfterNamed p => "positional argument after named arguments at " ++ p.text
  | duplicateArgument name p => "duplicate argument '" ++ name ++ "' at " ++ p.text
  | zeroStep p => "slice step cannot be zero at " ++ p.text

end QueryError

/-- The tokens that are left to read. There is always a current one, as reading never moves past the
last token. -/
structure TokenStream where
  current : PlacedToken
  following : List PlacedToken

namespace TokenStream

/-- A list of tokens as a stream. It ends with the end of the input, which is added at the place of
the last token if it is missing. -/
def ofList : List PlacedToken → TokenStream
  | [] => ⟨⟨.endOfInput, .start⟩, []⟩
  | t :: ts =>
    match (t :: ts).getLast (List.cons_ne_nil t ts) with
    | ⟨.endOfInput, _⟩ => ⟨t, ts⟩
    | ⟨_, p⟩ => ⟨t, ts ++ [⟨.endOfInput, p⟩]⟩

/-- The token after the current one, or the current one if it is the last. -/
def second (s : TokenStream) : Token :=
  (s.following.head?.getD s.current).token

/-- The stream without its current token. The last token stays. -/
def advance (s : TokenStream) : TokenStream :=
  match s.following with
  | [] => s
  | t :: ts => ⟨t, ts⟩

end TokenStream

/-- A reader takes tokens from a stream and gives a result or a problem. -/
abbrev Reading := ExceptT QueryError (StateM TokenStream)

namespace Reading

def current : Reading Token := do
  return (← get).current.token

def here : Reading Position := do
  return (← get).current.position

def advance : Reading Unit :=
  modify TokenStream.advance

def atMark (m : Mark) : Reading Bool := do
  return (← current).isMark m

def unexpected {α : Type} (expected : Expectation) : Reading α := do
  throw (.unexpected expected (← current) (← here))

def take (m : Mark) (expected : Expectation) : Reading Unit := do
  if ← atMark m then advance else unexpected expected

/-- Read items up to the mark `close`, with commas between them; a comma may stand before the mark.
An item knows the items before it. Every item takes a token, so `fuel` need not exceed the number of
tokens that are left. -/
def separated {α : Type} (close : Mark) (between : Expectation) (item : List α → Reading α) :
    Nat → List α → Reading (List α)
  | 0, _ => unexpected between
  | fuel + 1, before => do
    if ← atMark close then
      advance
      return before
    let x ← item before
    unless ← atMark close do
      take .comma between
    separated close between item fuel (before ++ [x])

/-- Read items up to the mark `close`, with commas between them. -/
def list {α : Type} (close : Mark) (between : Expectation) (item : List α → Reading α) :
    Reading (List α) := do
  separated close between item ((← get).following.length + 1) []

/-- The literal that a word stands for in an argument list, in any letter case. -/
def wordLiteral? (word : String) : Option Literal :=
  match Text.lowerAscii word with
  | "true" => some (.boolean true)
  | "false" => some (.boolean false)
  | "null" | "none" | "nil" => some .null
  | _ => none

def literal? : Token → Option Literal
  | .string s => some (.string s)
  | .integer n => some (.integer n)
  | .float x => some (.float x)
  | .name w => wordLiteral? w
  | _ => none

def literal : Reading Literal := do
  match literal? (← current) with
  | some v =>
    advance
    return v
  | none => unexpected .literal

/-- Read an argument that comes after the arguments `before`. -/
def argument (before : List Argument) : Reading Argument := do
  let position ← here
  let second := (← get).second
  match ← current with
  | .name n =>
    if second.isMark .colon || second.isMark .equals then
      advance
      advance
      if before.any fun a => a.name? == some n then
        throw (.duplicateArgument n position)
      return .named n (← literal)
    else positional position
  | _ => positional position
where
  /-- Read an argument without a name. -/
  positional (position : Position) : Reading Argument := do
    if before.any fun a => a.name?.isSome then
      throw (.positionalAfterNamed position)
    return .positional (← literal)

def segment : Reading Step := do
  let position ← here
  match ← current with
  | .name n =>
    advance
    if ← atMark .leftParen then
      advance
      return .call n (← list .rightParen .commaOrParen argument) position
    return .member n position
  | _ => unexpected .identifier

def integer? : Reading (Option Int64) := do
  match ← current with
  | .integer n =>
    advance
    return some n
  | _ => return none

def slice (start : Option Int64) (position : Position) : Reading Step := do
  take .colon .colon
  let stop ← integer?
  if ← atMark .colon then
    advance
    let stepPosition ← here
    let step ← integer?
    if step = some 0 then
      throw (.zeroStep stepPosition)
    return .slice start stop step position
  return .slice start stop none position

/-- Read an index, or a slice that starts with its first bound. -/
def indexOrSlice (i : Int64) (position : Position) : Reading Step := do
  advance
  if ← atMark .colon then slice (some i) position
  else return .index i position

def dottedStep : Reading Step := do
  let position ← here
  match ← current with
  | .name _ => segment
  | .integer i => indexOrSlice i position
  | .mark .colon => slice none position
  | _ => unexpected .step

/-- Read the step after an opening bracket, and the closing bracket. -/
def bracketStep : Reading Step := do
  let position ← here
  let step ←
    match ← current with
    | .integer i => indexOrSlice i position
    | .mark .colon => slice none position
    | _ => unexpected .indexOrSlice
  take .rightBracket .rightBracket
  return step

/-- Whether a token after an opening bracket makes the bracket an index or a slice. -/
def opensIndex : Token → Bool
  | .integer _ => true
  | .mark .colon => true
  | _ => false

/-- Read the steps that follow the steps `before`. Every step takes a token. -/
def steps : Nat → List Step → Reading (List Step)
  | 0, _ => unexpected .step
  | fuel + 1, before => do
    if ← atMark .dot then
      advance
      let s ← dottedStep
      steps fuel (before ++ [s])
    else if (← atMark .leftBracket) && opensIndex (← get).second then
      advance
      let s ← bracketStep
      steps fuel (before ++ [s])
    else return before

def chain : Reading (List Step) := do
  let first ← segment
  steps ((← get).following.length + 1) [first]

def label? : Reading (Option String) := do
  match ← current with
  | .name n =>
    if (← get).second.isMark .colon then
      advance
      advance
      return some n
    else return none
  | _ => return none

/-- Read a resource that starts with a name. `body` reads what follows its chain. -/
def named (body : Head → Reading Resource) : Reading Resource := do
  let position ← here
  let label ← label?
  let chain ← chain
  body ⟨label, chain, position⟩

/-- Read a child of an object. Its key has to differ from the keys of the children before it. -/
def child (body : Head → Reading Resource) (before : List Resource) : Reading Resource := do
  let r ← named body
  match r.key? with
  | none => return r
  | some key =>
    match before.find? fun s => s.key? == some key with
    | some first => throw (.duplicateKey key r.position first.position)
    | none => return r

/-- Read an item of a list, which may be a body without a name. -/
def item (body : Head → Reading Resource) (_before : List Resource) : Reading Resource := do
  let position ← here
  match ← current with
  | .mark .leftBrace | .mark .leftBracket => body ⟨none, [], position⟩
  | .name _ => named body
  | _ => unexpected .listItem

/-- Read what follows the chain of a resource: the items of a list, the children of an object, or
nothing for a field. Every level takes an opening bracket, so `depth` need not exceed the number of
tokens that are left by more than one. -/
def body : Nat → Head → Reading Resource
  | 0, _ => unexpected .listItem
  | depth + 1, h => do
    if ← atMark .leftBracket then
      advance
      if ← atMark .rightBracket then
        unexpected .listItem
      return .list h (← list .rightBracket .commaOrBracket (item (body depth)))
    else if ← atMark .leftBrace then
      advance
      return .object h (← list .rightBrace .commaOrBrace (child (body depth)))
    else return .field h

def query : Reading Query := do
  let position ← here
  let chain ← chain
  take .leftBrace .leftBrace
  let depth := (← get).following.length + 1
  let children ← list .rightBrace .commaOrBrace (child (body depth))
  match ← current with
  | .endOfInput => advance
  | _ => unexpected .endOfInput
  return ⟨⟨none, chain, position⟩, children⟩

end Reading

namespace TokenStream

/-- Read one query from a stream. The stream that is left can hold further queries. -/
def readQuery (s : TokenStream) : Except QueryError Query × TokenStream :=
  (Reading.query.run).run s

end TokenStream

namespace Query

def ofText (s : String) : Except QueryError Query :=
  match tokens s with
  | .error e => .error (.scan e)
  | .ok ts => (TokenStream.ofList ts).readQuery.1

end Query

end GatedQuery
