/-!
# Lines

Generated files are lists of lines, each closed by a newline.
-/

namespace ScriptGlue.Text

/-- The text of some lines, each followed by a newline. -/
def unlines (lines : List String) : String :=
  String.join (lines.map (· ++ "\n"))

/-- Lines joined by commas, as rows and messages list things. -/
def commaList (items : List String) : String := ", ".intercalate items

end ScriptGlue.Text
