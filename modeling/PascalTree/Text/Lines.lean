/-!
# Lines — texts of several lines
-/

namespace PascalTree
namespace Text

/-- Lines joined by line ends, without a final one. -/
def joinLines (lines : List String) : String :=
  String.ofList (List.intercalate ['\n'] (lines.map String.toList))

end Text
end PascalTree
