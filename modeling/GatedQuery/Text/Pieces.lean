/-! A text can hold another one, and can be cut where another one occurs. -/

namespace GatedQuery.Text

def occursIn (needle : List Char) : List Char → Bool
  | [] => needle.isEmpty
  | c :: cs => needle.isPrefixOf (c :: cs) || occursIn needle cs

/-- The pieces of a text between the occurrences of a separator that is not empty. `skip` characters
are still part of the last occurrence, and `piece` holds the characters of the piece that is being
read, last one first. -/
def cutFrom (separator : List Char) : Nat → List Char → List Char → List (List Char)
  | _, piece, [] => [piece.reverse]
  | skip + 1, piece, _ :: cs => cutFrom separator skip piece cs
  | 0, piece, c :: cs =>
    if separator.isPrefixOf (c :: cs) then
      piece.reverse :: cutFrom separator (separator.length - 1) [] cs
    else cutFrom separator 0 (c :: piece) cs

/-- The pieces of a text between the occurrences of a separator that is not empty. -/
def cutAt (separator cs : List Char) : List (List Char) :=
  cutFrom separator 0 [] cs

/-- What stands before the first occurrence of a character, and what stands after it. -/
def cutOnce? (mark : Char) : List Char → Option (List Char × List Char)
  | [] => none
  | c :: cs =>
    if c = mark then some ([], cs)
    else (cutOnce? mark cs).map fun (before, after) => (c :: before, after)

end GatedQuery.Text
