import GatedQuery.Unicode.Property

/-! Each of the three has its own classes of characters. A class is given by the properties of its
members and by what is special about it. -/

namespace GatedQuery.Unicode

def leadJamo : CharSet :=
  .ofText "1100-115F A960-A97C"

/-- Vowels of Korean syllables, and those of other scripts that join in the same way. -/
def vowelJamo : CharSet :=
  .ofText "1160-11A7 D7B0-D7C6 16D63 16D67-16D6A"

def trailJamo : CharSet :=
  .ofText "11A8-11FF D7CB-D7FB"

/-- Korean syllables without a final consonant: every 28th syllable. -/
def openSyllable : CharSet :=
  .ofCodes ((List.range 399).map fun i => 0xAC00 + 28 * i)

def closedSyllable : CharSet :=
  (CharSet.range 0xAC00 0xD7A3).diff openSyllable

def carriageReturn : CharSet :=
  .ofText "D"

def lineFeed : CharSet :=
  .ofText "A"

def zeroWidthJoiner : CharSet :=
  .ofText "200D"

/-- Consonants that are written with the syllable after them. -/
def repha : CharSet :=
  .ofText "D4E 111C2-111C3 113D1 1193F 11941 11A3A 11A84-11A89 11D46 11F02"

/-- What extends a grapheme, with the modifiers of emoji. -/
def graphemeExtension : CharSet :=
  graphemeExtend.union emojiModifier

def graphemePrepended : CharSet :=
  prependedConcatenationMark.union repha

/-- Spacing marks that are taken as characters of their own. -/
def standaloneMark : CharSet :=
  .ofText "
    102B-102C 1038 1062-1064 1067-106D 1083 1087-108C 108F 109A-109C 1A61 1A63-1A64 AA7B AA7D
    11720-11721"

/-- Spacing marks that belong to the grapheme before them. -/
def graphemeSpacingMark : CharSet :=
  ((spacingMark.union (.ofText "E33 EB3")).diff graphemeExtension).diff standaloneMark

def graphemeControl : CharSet :=
  (CharSet.unionAll [lineSeparator, paragraphSeparator, control, format,
    unassigned.inter defaultIgnorable]).diff
    (.unionAll [carriageReturn, lineFeed, joinControl, prependedConcatenationMark,
      graphemeExtension])

def graphemeBreaks : List NamedSet :=
  [⟨["Control", "CN"], graphemeControl⟩,
   ⟨["CR"], carriageReturn⟩,
   ⟨["Extend", "EX"], graphemeExtension⟩,
   ⟨["L"], leadJamo⟩,
   ⟨["LF"], lineFeed⟩,
   ⟨["LV"], openSyllable⟩,
   ⟨["LVT"], closedSyllable⟩,
   ⟨["Prepend", "PP"], graphemePrepended⟩,
   ⟨["Regional_Indicator", "RI"], regionalIndicator⟩,
   ⟨["SpacingMark", "SM"], graphemeSpacingMark⟩,
   ⟨["T"], trailJamo⟩,
   ⟨["V"], vowelJamo⟩,
   ⟨["ZWJ"], zeroWidthJoiner⟩]

/-- What extends the character before it, spacing marks included. -/
def markedExtension : CharSet :=
  graphemeExtend.union spacingMark

def wordExtension : CharSet :=
  markedExtension.union emojiModifier

/-- Format characters and separators that are part of numbers. -/
def numberSign : CharSet :=
  .ofText "600-605 66B 6DD 890-891 8E2 110BD 110CD"

def wordNumber : CharSet :=
  decimalNumber.union numberSign

def katakana : CharSet :=
  .ofText "
    3031-3035 309B-309C 30A0-30FA 30FC-30FF 31F0-31FF 32D0-32FE 3300-3357 FF66-FF9D 1AFF0-1AFF3
    1AFF5-1AFFB 1AFFD-1AFFE 1B000 1B120-1B122 1B155 1B164-1B167"

def hebrewLetter : CharSet :=
  .ofText "
    5D0-5EA 5EF-5F2 FB1D FB1F-FB28 FB2A-FB36 FB38-FB3C FB3E FB40-FB41 FB43-FB44 FB46-FB4F"

def hiragana : CharSet :=
  .ofText "3041-3096 309D-309F 1B001-1B11F 1B132 1B150-1B152"

/-- Letters of scripts that put no blanks between words. -/
def unspacedLetter : CharSet :=
  .ofText "
    E01-E30 E32-E33 E40-E46 E81-E82 E84 E86-E8A E8C-EA3 EA5 EA7-EB0 EB2-EB3 EBD EC0-EC4 EC6
    EDC-EDF 1000-102A 103F 1050-1055 105A-105D 1061 1065-1066 106E-1070 1075-1081 108E 1780-17B3
    17D7 17DC 1950-196D 1970-1974 1980-19AB 19B0-19C9 1A20-1A54 1AA7 A9E0-A9E4 A9E6-A9EF A9FA-A9FE
    AA60-AA76 AA7A AA7E-AAAF AAB1 AAB5-AAB6 AAB9-AABD AAC0 AAC2 AADB-AADD 11700-1171A 11740-11746"

def letterSign : CharSet :=
  .ofText "
    2C2-2C5 2D2-2D7 2DE-2DF 2E5-2EB 2ED 2EF-2FF 55A-55C 55E 58A 5F3 70F A708-A716 A720-A721
    A789-A78A AB5B"

def wordLetter : CharSet :=
  (alphabetic.union letterSign).diff
    (.unionAll [ideographic, katakana, hebrewLetter, hiragana, unspacedLetter, wordExtension])

def wordFormat : CharSet :=
  format.diff (.unionAll [numberSign, letterSign, graphemeExtend, .range 0x200B 0x200D])

def wordBreaks : List NamedSet :=
  [⟨["ALetter", "LE"], wordLetter⟩,
   ⟨["CR"], carriageReturn⟩,
   ⟨["Double_Quote", "DQ"], .ofText "22"⟩,
   ⟨["Extend"], wordExtension⟩,
   ⟨["ExtendNumLet", "EX"], connectorPunctuation.union (.ofText "202F")⟩,
   ⟨["Format", "FO"], wordFormat⟩,
   ⟨["Hebrew_Letter", "HL"], hebrewLetter⟩,
   ⟨["Katakana", "KA"], katakana⟩,
   ⟨["LF"], lineFeed⟩,
   ⟨["MidLetter", "ML"], .ofText "3A B7 387 55F 5F4 2027 FE13 FE55 FF1A"⟩,
   ⟨["MidNum", "MN"], .ofText "2C 3B 37E 589 60C-60D 66C 7F8 2044 FE10 FE14 FE50 FE54 FF0C FF1B"⟩,
   ⟨["MidNumLet", "MB"], .ofText "2E 2018-2019 2024 FE52 FF07 FF0E"⟩,
   ⟨["Newline", "NL"], .ofText "B-C 85 2028-2029"⟩,
   ⟨["Numeric", "NU"], wordNumber⟩,
   ⟨["Regional_Indicator", "RI"], regionalIndicator⟩,
   ⟨["Single_Quote", "SQ"], .ofText "27"⟩,
   ⟨["WSegSpace"], spaceSeparator.diff (.ofText "A0 2007 202F")⟩,
   ⟨["ZWJ"], zeroWidthJoiner⟩]

/-- Georgian letters that have a case only in headings. -/
def modernGeorgian : CharSet :=
  .ofText "10D0-10FA 10FD-10FF 1C90-1CBA 1CBD-1CBF"

def sentenceExtension : CharSet :=
  markedExtension.union zeroWidthJoiner

def sentenceLower : CharSet :=
  lowercase.diff (modernGeorgian.union graphemeExtend)

def sentenceUpper : CharSet :=
  (uppercase.union titlecaseLetter).diff modernGeorgian

def sentenceLetter : CharSet :=
  (alphabetic.union (.ofText "5F3")).diff
    (.unionAll [sentenceLower, sentenceUpper, sentenceExtension])

def fullStop : CharSet :=
  .ofText "2E 2024 FE52 FF0E"

/-- Characters that end a paragraph, the line feed and the carriage return apart. -/
def paragraphBreak : CharSet :=
  .ofText "85 2028-2029"

def sentenceContinue : CharSet :=
  .ofText "
    2C-2D 3A-3B 37E 55D 60C-60D 7F8 1802 1808 2013-2014 3001 FE10-FE11 FE13-FE14 FE31-FE32
    FE50-FE51 FE54-FE55 FE58 FE63 FF0C-FF0D FF1A-FF1B FF64"

/-- Quotation marks that are neither initial nor final punctuation. -/
def otherQuote : CharSet :=
  .ofText "22 27 275B-2760 2E00-2E01 2E06-2E08 2E0B 1F676-1F678"

def sentenceBreaks : List NamedSet :=
  [⟨["ATerm", "AT"], fullStop⟩,
   ⟨["Close", "CL"], .unionAll [openPunctuation, closePunctuation, initialPunctuation,
      finalPunctuation, otherQuote]⟩,
   ⟨["CR"], carriageReturn⟩,
   ⟨["Extend", "EX"], sentenceExtension⟩,
   ⟨["Format", "FO"], format.diff (.unionAll [numberSign, graphemeExtend, joinControl])⟩,
   ⟨["LF"], lineFeed⟩,
   ⟨["Lower", "LO"], sentenceLower⟩,
   ⟨["Numeric", "NU"], wordNumber.union (.ofText "66C")⟩,
   ⟨["OLetter", "LE"], sentenceLetter⟩,
   ⟨["SContinue", "SC"], sentenceContinue⟩,
   ⟨["Sep", "SE"], paragraphBreak⟩,
   ⟨["Sp", "SP"], whiteSpace.diff (.unionAll [paragraphBreak, lineFeed, carriageReturn])⟩,
   ⟨["STerm", "ST"], sentenceTerminal.diff fullStop⟩,
   ⟨["Upper", "UP"], sentenceUpper⟩]

end GatedQuery.Unicode
