import GatedQuery.Pattern.CharClass
import GatedQuery.Unicode.Age
import GatedQuery.Unicode.Break
import GatedQuery.Unicode.ScriptExtension

/-! A lone name is looked up among the properties with two values, then the general categories and then
the scripts. A property with more values is named together with one of them. -/

namespace GatedQuery.Pattern

namespace PropertyName

open Unicode (CharSet NamedSet)

/-- The sets that are looked up together with the general categories. -/
def wideSets : List NamedSet :=
  [⟨["Any"], .full⟩,
   ⟨["Assigned"], Unicode.assigned⟩,
   ⟨["ASCII"], .range 0x00 0x7F⟩]

/-- A general category, or a set that is looked up together with them. -/
def category? (name : String) : Option CharSet :=
  NamedSet.find? wideSets name <|> NamedSet.find? Unicode.generalCategories name

/-- Names of categories that are also names of properties, and are taken as categories. -/
def reserved : List String := ["cf", "sc", "lc"]

def set? (name : String) : Option CharSet :=
  let property :=
    if reserved.any (Unicode.Name.same name) then none
    else NamedSet.find? Unicode.binaryProperties name
  property <|> category? name <|> NamedSet.find? Unicode.scripts name

/-- A property with more than two values, and the sets that its values stand for. -/
structure Valued where
  names : List String
  set? : String → Option CharSet

def valued : List Valued :=
  [⟨["General_Category", "gc"], category?⟩,
   ⟨["Script", "sc"], NamedSet.find? Unicode.scripts⟩,
   ⟨["Script_Extensions", "scx"], NamedSet.find? Unicode.scriptExtensions⟩,
   ⟨["Age"], NamedSet.find? Unicode.ages⟩,
   ⟨["Grapheme_Cluster_Break", "GCB"], NamedSet.find? Unicode.graphemeBreaks⟩,
   ⟨["Word_Break", "WB"], NamedSet.find? Unicode.wordBreaks⟩,
   ⟨["Sentence_Break", "SB"], NamedSet.find? Unicode.sentenceBreaks⟩]

def valueSet? (name value : String) : Option CharSet :=
  (valued.find? fun p => p.names.any (Unicode.Name.same name)).bind fun p => p.set? value

def class? (name : String) : Option CharClass :=
  (set? name).map .ofSet

/-- The class of the characters whose property has a value. -/
def valueClass? (name value : String) : Option CharClass :=
  (valueSet? name value).map .ofSet

end PropertyName

end GatedQuery.Pattern
