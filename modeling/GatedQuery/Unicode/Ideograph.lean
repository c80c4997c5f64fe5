import GatedQuery.Unicode.CharSet

namespace GatedQuery.Unicode

def ideographic : CharSet :=
  .ofText "
    3006-3007 3021-3029 3038-303A 3400-4DBF 4E00-9FFF F900-FA6D FA70-FAD9 16FE4 17000-187F7
    18800-18CD5 18CFF-18D08 1B170-1B2FB 20000-2A6DF 2A700-2B739 2B740-2B81D 2B820-2CEA1
    2CEB0-2EBE0 2EBF0-2EE5D 2F800-2FA1D 30000-3134A 31350-323AF"

def unifiedIdeograph : CharSet :=
  .ofText "
    3400-4DBF 4E00-9FFF FA0E-FA0F FA11 FA13-FA14 FA1F FA21 FA23-FA24 FA27-FA29 20000-2A6DF
    2A700-2B739 2B740-2B81D 2B820-2CEA1 2CEB0-2EBE0 2EBF0-2EE5D 30000-3134A 31350-323AF"

/-- Parts of ideographs that dictionaries are ordered by. -/
def radical : CharSet :=
  .ofText "2E80-2E99 2E9B-2EF3 2F00-2FD5"

def unaryDescription : CharSet :=
  .ofText "2FFE-2FFF"

def binaryDescription : CharSet :=
  .ofText "2FF0-2FF1 2FF4-2FFD 31EF"

def trinaryDescription : CharSet :=
  .ofText "2FF2-2FF3"

end GatedQuery.Unicode
