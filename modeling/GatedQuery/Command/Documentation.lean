import GatedQuery.Command.Error
import GatedQuery.Text.Casing

/-! The program explains itself by category. A category has several names, in any letter case and with
hyphens or underscores. -/

namespace GatedQuery

inductive DocCategory where
  | querySyntax
  | resources
  | filters
  | arguments
  | registry
  | builtins
  | errors
deriving DecidableEq, Repr

namespace DocCategory

/-- The category of a name in small letters and underscores. -/
def ofName? : String → Option DocCategory
  | "syntax" => some querySyntax
  | "resources" | "resource" | "fields" | "lists" | "objects" => some resources
  | "filters" | "filter" | "steps" | "slices" => some filters
  | "arguments" | "args" | "literals" => some arguments
  | "registry" | "security" | "config" => some registry
  | "builtins" | "builtin" | "builtin_filters" => some builtins
  | "errors" | "error" => some errors
  | _ => none

def ofText? (s : String) : Option DocCategory :=
  let name := (Text.lower s.toList).map fun c => if c = '-' then '_' else c
  ofName? (String.ofList name)

/-- What the program is for, and the categories of its documentation. -/
def overview : String := "DATAQL DOCUMENTATION

dataql is a compact query language for requesting exactly the shape of data
you need from live backend values. A query starts from a named entry point
and lists the fields, objects and lists it wants; the result has that shape
and nothing else. Only what the registry allows can be reached.

DOCUMENTATION CATEGORIES

  syntax            Query structure, keys, aliases and whitespace
  resources         Fields, objects and lists
  filters           Attribute, method, index and slice steps
  arguments         Literal arguments, positional and named
  registry          The allow-list and its configuration file
  builtins          Filters available for strings, lists, maps and numbers
  errors            What can go wrong and how it is reported

QUICK REFERENCE

  User \x7b name \x7d                     Entry point and one field
  User.get('Ada') \x7b name \x7d          Entry point called with an argument
  year: created_year                Alias
  birthday.strftime('%x')           Method step
  companies[name]                   List, one result per element
  companies[\x7b name, year \x7d]         List of objects
  companies.0.name                  Index step (also companies[0].name)
  items[1:3]  items[::-1]           Slices

Run 'dataql doc <category>' for detailed documentation.
"

def syntaxText : String := "SYNTAX

QUERY STRUCTURE
  <entry point>[.<steps>] \x7b <child>, <child>, ... \x7d

  Every query is one object. Its first step names an entry point declared
  in the registry; the children inside braces say what to return.

    User.get('Elon Musk') \x7b
        name,
        birthday.strftime('%x'),
        companies[\x7b name, year: created_year \x7d],
        company_names: companies[name],
        first_company: companies.0.name,
    \x7d

KEYS
  The key of a child is its alias, or the name of its first step:

    name                     key \"name\"
    birthday.strftime('%x')  key \"birthday\"
    year: created_year       key \"year\"

  Keys must be unique inside one object. Results keep the order in which
  children are declared.

WHITESPACE AND COMMAS
  Whitespace, including newlines, is insignificant. A trailing comma is
  accepted before '\x7d', ']' and ')'.

IDENTIFIERS
  Letters, digits and underscores, not starting with a digit.

CANONICAL FORM
  'dataql check --canonical' prints a query in canonical form: one line,
  indexes and slices in brackets.

    dataql check --canonical \"User \x7b first: companies.0.name \x7d\"
    User \x7b first: companies[0].name \x7d
"

def resourcesText : String := "RESOURCES

FIELD
  A name, optionally followed by steps. Resolves to a plain value.

    name
    birthday.strftime('%x')

  A backend object ending up in a field is returned as its string form.
  Lists and maps keep their structure.

OBJECT
  A resource followed by braces. Resolves to a mapping from each child's
  key to its result.

    owner \x7b name, email \x7d

  Over null, every child resolves against null: fields become null, lists
  become empty.

LIST
  A resource followed by brackets. The value is iterated and every element
  resolved through the body.

    companies[name]                  [\"SpaceX\", \"Tesla\"]
    companies[\x7b name, year \x7d]        [\x7b\"name\": ..., \"year\": ...\x7d, ...]
    companies[name, created_year]    [[\"SpaceX\", 2002], [\"Tesla\", 2003]]
    matrix[[value]]                  nested lists

  With one body resource each element gives one result; with several each
  element gives a list of results. Maps iterate their values. A null list
  is empty.
"

def filtersText : String := "FILTERS

Steps are joined with '.' and applied left to right. When a step yields
null the chain stops: later steps are never run and the result is null.

ATTRIBUTE
    owner.name

  Reads the attribute. A method named without parentheses is called with
  no arguments.

METHOD
    birthday.strftime('%x')
    total.round(ndigits: 2)

INDEX
    companies.0          companies[0]
    companies.-1         companies[-1]       last element

  Negative indexes count from the end. Maps are indexed by the number's
  text: data.2020 reads key \"2020\". Strings index characters.

SLICE
    items[1:3]     items.1:3       elements 1 and 2
    items[:2]                      first two
    items[-2:]                     last two
    items[::-1]                    reversed

  start is inclusive, stop exclusive. The step may be negative, never zero.

Index and slice steps need no registry entry; attribute and method steps
always do.
"

def argumentsText : String := "ARGUMENTS

Only literals can be passed to methods.

LITERALS
  Strings      'single' or \"double\" quoted, backslash escapes: \\n \\t \\r \\' \\\"
  Integers     42  -7
  Floats       2.5  -0.5  1e+50  -2.5E-3
  Booleans     true  false           (any letter case)
  Null         null  none  nil       (any letter case)

POSITIONAL AND NAMED
    get('Elon Musk')
    round(2)
    round(ndigits: 2)
    round(ndigits=2)

  Named arguments use ':' or '=' and must come after positional ones.
  A name may only be given once.
"

def registryText : String := "REGISTRY

Nothing is reachable unless declared. The registry lists entry points and,
for every type, the members a query may use. A member a value really has is
still denied when it is not declared.

CONFIGURATION FILE
  \x7b
    \"entry_points\": [\"User\"],
    \"types\": \x7b
      \"Person\": \x7b \"allow\": [\"name\"] \x7d,
      \"User\":   \x7b \"extends\": [\"Person\"], \"allow\": [\"email\", \"companies\"] \x7d,
      \"map\":    \x7b \"allow\": [\"title\"] \x7d,
      \"string\": \x7b \"builtins\": true,
                  \"allow\": [\x7b \"name\": \"shout\", \"filter\": \"string.upper\" \x7d] \x7d
    \x7d
  \x7d

  entry_points   Top-level keys of the data document exposed as entry
                 points. All keys when omitted.
  extends        Supertypes; members are inherited from them.
  allow          Member names, or \x7b name, filter \x7d pairs where a builtin
                 filter stands in for the member.
  builtins       Allow every builtin filter of a builtin type.
  inherit        Receive members of supertypes (default true).
  propagate      Hand own members down to subtypes (default true).

TYPES
  Builtin values are typed null, boolean, integer, float, string, list and
  map. In data documents, a JSON object with a \"__type__\" key is a record of
  that type; its fields are its attributes.

    \x7b \"User\": \x7b \"__type__\": \"Directory\",
                \"get\": \x7b \"Ada\": \x7b \"__type__\": \"User\", \"name\": \"Ada\" \x7d \x7d \x7d \x7d

  A record field holding an object can be called with a key:
  User.get('Ada') looks \"Ada\" up in \"get\". A missing key gives null.

INHERITANCE
  The most specific declaration of a member wins. Two unrelated supertypes
  at the same distance providing different filters for one member make the
  registry invalid.
"

def builtinsText : String := "BUILTINS

Builtin filters must be allowed like any member, per type with
\"builtins\": true or one by one with \x7b \"name\", \"filter\": \"<type>.<filter>\" \x7d.

STRING
  upper  lower  strip  length
  startswith(prefix)  endswith(suffix)  contains(needle)
  split(sep?)                     whitespace when sep is omitted
  matches(pattern)                regular expression search
  replace(pattern, replacement)   regular expression, $1 for groups

LIST
  length  first  last  reverse  join(sep?)

MAP
  keys  values  length  get(key, default?)

INTEGER, FLOAT
  abs  round(ndigits?)            half to even; a float rounded without
                                  ndigits becomes an integer
"

def errorsText : String := "ERRORS

SYNTAX
  Bad queries are rejected before anything runs, with the position of the
  problem:

    User \x7b name email \x7d
    expected ',' or '\x7d', found 'email' at line 1, column 13

    User \x7b name, name \x7d
    duplicate key 'name' at line 1, column 14 (first declared at line 1, column 8)

RESOLUTION
  unknown entry point    the first step names no entry point
  not allowed            the registry does not allow the member on the type
  not found              the member is allowed but the value lacks it
  index not found        the index is out of range or the key is missing
  not iterable           a list resource resolved to a scalar
  cannot be indexed      an index or slice on a value without elements
  failed                 an entry point, method or filter reported an error

  Null is never an error: a chain reaching null stops and yields null.

EXIT STATUS
  0 on success, 1 on any error. Errors are printed to stderr.
"

def text : DocCategory → String
  | querySyntax => syntaxText
  | resources => resourcesText
  | filters => filtersText
  | arguments => argumentsText
  | registry => registryText
  | builtins => builtinsText
  | errors => errorsText

/-- The category that a text names, or the failure to find one. -/
def ofText (s : String) : Except CommandError DocCategory :=
  match ofText? s with
  | some category => .ok category
  | none => .error (.unknownCategory s)

end DocCategory

end GatedQuery
