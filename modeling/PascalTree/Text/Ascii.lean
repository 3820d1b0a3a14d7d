/-!
# Ascii — comparison up to the case of ASCII letters
-/

namespace PascalTree
namespace Text

/-- A text with its ASCII capital letters made small; other letters keep their case. -/
def lowered (text : String) : List Char := text.toList.map Char.toLower

/-- Equality up to the case of ASCII letters. -/
def sameIgnoringCase (a b : String) : Bool := lowered a == lowered b

end Text
end PascalTree
