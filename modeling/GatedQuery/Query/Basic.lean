import GatedQuery.Text.Position

/-! A query names an entry point and the shape of the answer. The shape is a tree of resources: a field
is a leaf, an object maps the keys of its children to their answers, and a list resolves its body
once for every element. Each resource starts with a chain of steps that leads to its value. -/

namespace GatedQuery

/-- A value that is written out in a query. -/
inductive Literal where
  | null
  | boolean (b : Bool)
  | integer (n : Int64)
  | float (x : Float)
  | string (s : String)

inductive Argument where
  | positional (value : Literal)
  | named (name : String) (value : Literal)

namespace Argument

def name? : Argument → Option String
  | positional _ => none
  | named n _ => some n

end Argument

/-- One step of a chain, at the place of its first character. -/
inductive Step where
  | member (name : String) (position : Position)
  | call (name : String) (arguments : List Argument) (position : Position)
  /-- One element, counted from the end when the index is negative. -/
  | index (i : Int64) (position : Position)
  /-- The elements from `start` up to but not including `stop`, every `step`-th one. -/
  | slice (start stop step : Option Int64) (position : Position)

namespace Step

def name? : Step → Option String
  | member n _ | call n _ _ => some n
  | index .. | slice .. => none

def position : Step → Position
  | member _ p | call _ _ p | index _ p | slice _ _ _ p => p

def arguments : Step → List Argument
  | call _ as _ => as
  | _ => []

end Step

/-- What every resource starts with. -/
structure Head where
  /-- The alias, a key that the query chooses itself. -/
  label : Option String
  chain : List Step
  position : Position

namespace Head

/-- The key of a resource: its alias, or else the name of its first step. -/
def key? (h : Head) : Option String :=
  h.label <|> (h.chain.head?.bind Step.name?)

end Head

inductive Resource where
  | field (head : Head)
  | list (head : Head) (body : List Resource)
  | object (head : Head) (children : List Resource)

namespace Resource

def head : Resource → Head
  | field h | list h _ | object h _ => h

def key? (r : Resource) : Option String :=
  r.head.key?

def position (r : Resource) : Position :=
  r.head.position

end Resource

/-- A query: an object whose first step names the entry point. -/
structure Query where
  head : Head
  children : List Resource

namespace Query

def root (q : Query) : Resource :=
  .object q.head q.children

/-- The name of the entry point, which is empty when the first step has no name. -/
def entryPoint (q : Query) : String :=
  (q.head.chain.head?.bind Step.name?).getD ""

def entryArguments (q : Query) : List Argument :=
  match q.head.chain with
  | [] => []
  | s :: _ => s.arguments

end Query

end GatedQuery
