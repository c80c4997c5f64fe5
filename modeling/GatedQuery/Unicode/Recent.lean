import GatedQuery.Unicode.Formatting
import GatedQuery.Unicode.Grapheme
import GatedQuery.Unicode.Letter

/-! Patterns classify characters as version 16.0 of the standard does, so that what they accept does not
move. Casing, quoting and the names of groups follow version 17.0. This module adds what that
version brought. -/

namespace GatedQuery.Unicode

/-- The characters that version 17.0 added. All of them are to be seen. -/
def recentGraphic : CharSet :=
  .ofText "
    88F C5C CDC 1ACF-1ADD 1AE0-1AEB 20C1 2B96 A7CE-A7CF A7D2 A7D4 A7F1 FBC3-FBD2 FD90-FD91
    FDC8-FDCE 10940-10959 10EC5-10EC7 10ED0-10ED8 10EFA-10EFB 11B60-11B67 11DB0-11DDB 11DE0-11DE9
    16EA0-16EB8 16EBB-16ED3 16FF2-16FF6 187F8-187FF 18D09-18D1E 18D80-18DF2 1CCFA-1CCFC
    1CEBA-1CED0 1CEE0-1CEF0 1E6C0-1E6DE 1E6E0-1E6F5 1E6FE-1E6FF 1F6D8 1F777-1F77A 1F8D0-1F8D8
    1FA54-1FA57 1FA8A 1FA8E 1FAC8 1FACD 1FAEA 1FAEF 1FBFA 2B73A-2B73F 2CEA2-2CEAD 323B0-33479"

def recentAlphabetic : CharSet :=
  .ofText "
    88F C5C CDC A7CE-A7CF A7D2 A7D4 A7F1 10940-10959 10EC5-10EC7 10EFA-10EFB 11B60-11B67
    11DB0-11DDB 16EA0-16EB8 16EBB-16ED3 16FF2-16FF6 187F8-187FF 18D09-18D1E 18D80-18DF2
    1E6C0-1E6DE 1E6E0-1E6F5 1E6FE-1E6FF 2B73A-2B73F 2CEA2-2CEAD 323B0-33479"

def recentNumber : CharSet :=
  .ofText "11DE0-11DE9 16FF4-16FF6"

def recentCased : CharSet :=
  .ofText "A7CE-A7CF A7D2 A7D4 A7F1 16EA0-16EB8 16EBB-16ED3"

def recentCaseIgnorable : CharSet :=
  .ofText "
    1ACF-1ADD 1AE0-1AEB A7F1 10EC5 10EFA-10EFB 11B60 11B62-11B64 11B66 11DD9 16FF2-16FF3 1E6E3
    1E6E6 1E6EE-1E6EF 1E6F5 1E6FF"

/-- Those that are shown as part of the character before them. -/
def recentGraphemeExtend : CharSet :=
  .ofText "
    1ACF-1ADD 1AE0-1AEB 10EFA-10EFB 11B60 11B62-11B64 11B66 1E6E3 1E6E6 1E6EE-1E6EF 1E6F5"

def isAlphabetic (c : Char) : Bool :=
  alphabetic.mem c || recentAlphabetic.mem c

def isNumeric (c : Char) : Bool :=
  number.mem c || recentNumber.mem c

/-- Whether `c` has a case. One letter of version 16.0 lost it. -/
def isCased (c : Char) : Bool :=
  (cased.mem c && c != 'ʕ') || recentCased.mem c

/-- Whether casing passes over `c` when it looks for the end of a word. -/
def isCaseIgnorable (c : Char) : Bool :=
  caseIgnorable.mem c || recentCaseIgnorable.mem c

/-- Whether `c` is shown as part of the character before it. The halfwidth sound marks of Katakana
are not: they have a width of their own. -/
def isCombining (c : Char) : Bool :=
  (graphemeExtend.mem c && c != 'ﾞ' && c != 'ﾟ') || recentGraphemeExtend.mem c

/-- Whether `c` is shown as itself: it is to be seen or the space, and not one of the fillers that
are shown as nothing. -/
def isVisible (c : Char) : Bool :=
  c == ' ' || ((graphic.mem c || recentGraphic.mem c) && !defaultIgnorable.mem c)

end GatedQuery.Unicode
