import StaticSite.Tree.Load

/-! # Options

What a caller may ask for besides the tree: the theme's variables, code for the whole page, and
files for a hosting platform around the site.
-/

namespace StaticSite

/-- Options of generation. -/
structure GenerationOptions where
  includeTheme : Bool := false
  themeVariables : Option (List (String × String)) := none
  pageCode : Option PageCode := none
  deriving DecidableEq, Repr

/-- The hosting platforms. -/
def platforms : List String := ["vercel", "netlify", "static"]

/-- Options of an export. -/
structure ExportOptions extends GenerationOptions where
  includeConfig : Bool := false
  platform : Option String := none
  deriving DecidableEq, Repr

namespace Check

/-- Checks options of generation. -/
def generationFields (fields : Fields) : Checked GenerationOptions :=
  (Checked.valid GenerationOptions.mk).ap
      (.field ["includeTheme", "include_theme"] false bool fields)
    |>.ap (.field ["themeVariables", "theme_variables"] none (.optional (.table text)) fields)
    |>.ap (.field ["globalCustomCode", "global_custom_code"] none (.optional pageCode) fields)

/-- Checks options of generation. -/
def generationOptions : Value → Checked GenerationOptions := .model generationFields

/-- Checks options of an export. -/
def exportOptions : Value → Checked ExportOptions := .model fun fields =>
  (Checked.valid ExportOptions.mk).ap (generationFields fields)
    |>.ap (.field ["includeConfig", "include_config"] false bool fields)
    |>.ap (.field ["platform"] none (.optional (oneOf platforms)) fields)

end Check

end StaticSite
