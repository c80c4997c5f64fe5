import GatedQuery.Unicode.Category

namespace GatedQuery.Unicode

def bidiControl : CharSet :=
  .ofText "61C 200E-200F 202A-202E 2066-2069"

/-- Characters that choose a variant of the character before them. -/
def variationSelector : CharSet :=
  .ofText "180B-180D 180F FE00-FE0F E0100-E01EF"

/-- Format characters that are shown and span the digits after them. -/
def prependedConcatenationMark : CharSet :=
  .ofText "600-605 6DD 70F 890-891 8E2 110BD 110CD"

/-- Ignorable code points that are neither format characters nor variation selectors. -/
def otherDefaultIgnorable : CharSet :=
  .ofText "
    34F 115F-1160 17B4-17B5 2065 3164 FFA0 FFF0-FFF8 E0000 E0002-E001F E0080-E00FF E01F0-E0FFF"

def shownFormat : CharSet :=
  .ofText "FFF9-FFFB 13430-1343F"

/-- Code points that are not shown where they are not supported. -/
def defaultIgnorable : CharSet :=
  (CharSet.unionAll [format, variationSelector, otherDefaultIgnorable]).diff
    (shownFormat.union prependedConcatenationMark)

def deprecated : CharSet :=
  .ofText "149 673 F77 F79 17A3-17A4 206A-206F 2329-232A E0001"

def noncharacter : CharSet :=
  .ofText "
    FDD0-FDEF FFFE-FFFF 1FFFE-1FFFF 2FFFE-2FFFF 3FFFE-3FFFF 4FFFE-4FFFF 5FFFE-5FFFF 6FFFE-6FFFF
    7FFFE-7FFFF 8FFFE-8FFFF 9FFFE-9FFFF AFFFE-AFFFF BFFFE-BFFFF CFFFE-CFFFF DFFFE-DFFFF
    EFFFE-EFFFF FFFFE-FFFFF 10FFFE-10FFFF"

/-- Vowels that are written before the consonant that they follow. -/
def logicalOrderException : CharSet :=
  .ofText "E40-E44 EC0-EC4 19B5-19B7 19BA AAB5-AAB6 AAB9 AABB-AABC"

end GatedQuery.Unicode
