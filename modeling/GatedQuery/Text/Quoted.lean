import GatedQuery.Unicode.Recent

/-! There are two ways to quote a text. A query writes a string between single quotes and escapes only
what its own reader needs. A message shows a string between double quotes and escapes also what
could not be seen. -/

namespace GatedQuery.Text

def literalChar (c : Char) : List Char :=
  if c = '\'' then ['\\', '\'']
  else if c = '\\' then ['\\', '\\']
  else if c = '\n' then ['\\', 'n']
  else if c = '\t' then ['\\', 't']
  else if c = '\r' then ['\\', 'r']
  else [c]

def literal (s : String) : String :=
  String.ofList ('\'' :: (s.toList.flatMap literalChar ++ ['\'']))

def codePointEscape (c : Char) : List Char :=
  ['\\', 'u', '\x7b'] ++ Nat.toDigits 16 c.toNat ++ ['\x7d']

def shownChar (c : Char) : List Char :=
  if c = '"' then ['\\', '"']
  else if c = '\\' then ['\\', '\\']
  else if c = '\x00' then ['\\', '0']
  else if c = '\t' then ['\\', 't']
  else if c = '\r' then ['\\', 'r']
  else if c = '\n' then ['\\', 'n']
  else if Unicode.isCombining c || !Unicode.isVisible c then codePointEscape c
  else [c]

def shown (s : String) : String :=
  String.ofList ('"' :: (s.toList.flatMap shownChar ++ ['"']))

end GatedQuery.Text
