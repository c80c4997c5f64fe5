import GatedQuery.Unicode.CaseTable
import GatedQuery.Unicode.Recent

/-! A text is put into one case character by character. The one character whose form depends on its
neighbours is the Greek capital sigma: it has its own lowercase form at the end of a word. -/

namespace GatedQuery.Text

def upper (cs : List Char) : List Char :=
  cs.flatMap Unicode.upperOf

/-- Whether the first character that casing does not pass over has a case. -/
def startsCased (cs : List Char) : Bool :=
  match cs.dropWhile Unicode.isCaseIgnorable with
  | c :: _ => Unicode.isCased c
  | [] => false

/-- The text in lowercase. `before` holds the characters that precede it, last one first. -/
def lowerAfter (before : List Char) : List Char → List Char
  | [] => []
  | c :: cs =>
    let form :=
      if c = 'Σ' then if startsCased before && !startsCased cs then ['ς'] else ['σ']
      else Unicode.lowerOf c
    form ++ lowerAfter (c :: before) cs

def lower (cs : List Char) : List Char :=
  lowerAfter [] cs

/-- The text with the capital letters of ASCII, and only those, in lowercase. -/
def lowerAscii (s : String) : String :=
  String.ofList (s.toList.map Char.toLower)

end GatedQuery.Text
