import GatedQuery.Unicode.Letter

/-! What may start and what may continue an identifier, and what mathematical notation uses. -/

namespace GatedQuery.Unicode

/-- Characters that are set aside for the notation of patterns. -/
def patternSyntax : CharSet :=
  .ofText "
    21-2F 3A-40 5B-5E 60 7B-7E A1-A7 A9 AB-AC AE B0-B1 B6 BB BF D7 F7 2010-2027 2030-203E
    2041-2053 2055-205E 2190-245F 2500-2775 2794-2BFF 2E00-2E7F 3001-3003 3008-3020 3030 FD3E-FD3F
    FE45-FE46"

/-- Characters that are set aside as blanks of patterns. -/
def patternWhiteSpace : CharSet :=
  .ofText "9-D 20 85 200E-200F 2028-2029"

/-- Characters that start an identifier although they are neither letters nor letter numbers. -/
def otherIdentifierStart : CharSet :=
  .ofText "1885-1886 2118 212E 309B-309C"

/-- Characters that continue an identifier although their category does not say so. -/
def otherIdentifierContinue : CharSet :=
  .ofText "B7 387 1369-1371 19DA 200C-200D 30FB FF65"

def identifierStart : CharSet :=
  (CharSet.unionAll [letter, letterNumber, otherIdentifierStart]).diff
    (patternSyntax.union patternWhiteSpace)

def identifierContinue : CharSet :=
  (CharSet.unionAll [identifierStart, nonspacingMark, spacingMark, decimalNumber,
    connectorPunctuation, otherIdentifierContinue]).diff (patternSyntax.union patternWhiteSpace)

/-- Characters whose compatibility form could not continue an identifier. -/
def unstableContinue : CharSet :=
  .ofText "37A 309B-309C FC5E-FC63 FDFA-FDFB FE70-FE7E/2"

/-- Characters whose compatibility form could not start an identifier. -/
def unstableStart : CharSet :=
  .ofText "37A E33 EB3 309B-309C FC5E-FC63 FDFA-FDFB FE70-FE7E/2 FF9E-FF9F"

/-- Characters that start an identifier also after normalization. -/
def stableIdentifierStart : CharSet :=
  identifierStart.diff unstableStart

/-- Characters that continue an identifier also after normalization. -/
def stableIdentifierContinue : CharSet :=
  identifierContinue.diff unstableContinue

/-- Mathematical symbols that start identifiers in mathematical notation. -/
def mathIdentifierStart : CharSet :=
  .ofText "2202 2207 221E 1D6C1 1D6DB 1D6FB 1D715 1D735 1D74F 1D76F 1D789 1D7A9 1D7C3"

/-- Raised and lowered characters that continue identifiers in mathematical notation. -/
def mathIdentifierScript : CharSet :=
  .ofText "B2-B3 B9 2070 2074-207E 2080-208E"

/-- Characters that continue identifiers in mathematical notation. -/
def mathIdentifierContinue : CharSet :=
  mathIdentifierStart.union mathIdentifierScript

/-- Characters used in mathematics that are not mathematical symbols. -/
def otherMath : CharSet :=
  .ofText "
    5E 3D0-3D2 3D5 3F0-3F1 3F4-3F5 2016 2032-2034 2040 2061-2064 207D-207E 208D-208E 20D0-20DC
    20E1 20E5-20E6 20EB-20EF 2102 2107 210A-2113 2115 2119-211D 2124 2128-2129 212C-212D 212F-2131
    2133-2138 213C-213F 2145-2149 2195-2199 219C-219F 21A1-21A2 21A4-21A5 21A7 21A9-21AD 21B0-21B1
    21B6-21B7 21BC-21CD 21D0-21D1 21D3 21D5-21DB 21DD 21E4-21E5 2308-230B 23B4-23B5 23B7 23D0 23E2
    25A0-25A1 25AE-25B6 25BC-25C0 25C6-25C7 25CA-25CB 25CF-25D3 25E2 25E4 25E7-25EC 2605-2606 2640
    2642 2660-2663 266D-266E 27C5-27C6 27E6-27EF 2983-2998 29D8-29DB 29FC-29FD FE61 FE63 FE68 FF3C
    FF3E 1D400-1D454 1D456-1D49C 1D49E-1D49F 1D4A2 1D4A5-1D4A6 1D4A9-1D4AC 1D4AE-1D4B9 1D4BB
    1D4BD-1D4C3 1D4C5-1D505 1D507-1D50A 1D50D-1D514 1D516-1D51C 1D51E-1D539 1D53B-1D53E
    1D540-1D544 1D546 1D54A-1D550 1D552-1D6A5 1D6A8-1D6C0 1D6C2-1D6DA 1D6DC-1D6FA 1D6FC-1D714
    1D716-1D734 1D736-1D74E 1D750-1D76E 1D770-1D788 1D78A-1D7A8 1D7AA-1D7C2 1D7C4-1D7CB
    1D7CE-1D7FF 1EE00-1EE03 1EE05-1EE1F 1EE21-1EE22 1EE24 1EE27 1EE29-1EE32 1EE34-1EE37 1EE39
    1EE3B 1EE42 1EE47-1EE4B/2 1EE4D-1EE4F 1EE51-1EE52 1EE54 1EE57-1EE5F/2 1EE61-1EE62 1EE64
    1EE67-1EE6A 1EE6C-1EE72 1EE74-1EE77 1EE79-1EE7C 1EE7E 1EE80-1EE89 1EE8B-1EE9B 1EEA1-1EEA3
    1EEA5-1EEA9 1EEAB-1EEBB"

def math : CharSet :=
  mathSymbol.union otherMath

def hexDigits : CharSet :=
  .ofText "30-39 41-46 61-66 FF10-FF19 FF21-FF26 FF41-FF46"

def asciiHexDigits : CharSet :=
  .ofText "30-39 41-46 61-66"

end GatedQuery.Unicode
