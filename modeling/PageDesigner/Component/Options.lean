/-!
Options of the generated component modules.
-/

namespace PageDesigner

structure Options where
  /-- Spaces per level of indentation. -/
  indentWidth : UInt64 := 2
  /-- Ends every component's name. -/
  componentSuffix : String := "Page"
  /-- Source of an image that has none. -/
  placeholderSource : String := "/placeholder.jpg"
  /-- Body of a text that has none. -/
  defaultText : String := "Text"
  deriving DecidableEq, Repr, Inhabited

/-- The file of a directory that holds the options. -/
def Options.fileName : String := "framecraft.config.json"

end PageDesigner
