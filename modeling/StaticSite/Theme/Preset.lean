import StaticSite.Theme.Tokens

/-! # Preset themes

The themes that come with the library. The default theme has every token; the others override some
of its groups.
-/

namespace StaticSite.Theme

/-- A preset theme. -/
inductive Preset
  | default
  | dark
  | corporate
  | playful
  | minimal
  deriving DecidableEq, Repr

namespace Preset

/-- All presets in order. -/
def all : List Preset := [.default, .dark, .corporate, .playful, .minimal]

/-- The name of a preset. -/
def label : Preset → String
  | .default => "default"
  | .dark => "dark"
  | .corporate => "corporate"
  | .playful => "playful"
  | .minimal => "minimal"

/-- The preset with a name. -/
def ofLabel? (label : String) : Option Preset := all.find? (·.label == label)

/-- The names of the presets. -/
def labels : List String := all.map label

/-- The colours of a theme, in the order of their names. -/
def palette (primary secondary accent background surface text textSecondary border error warning
    success : String) : Entries := [
  ("primary", .text primary),
  ("secondary", .text secondary),
  ("accent", .text accent),
  ("background", .text background),
  ("surface", .text surface),
  ("text", .text text),
  ("textSecondary", .text textSecondary),
  ("border", .text border),
  ("error", .text error),
  ("warning", .text warning),
  ("success", .text success)]

/-- The fonts of a theme, that of the text and that of the headings, before its other typography. -/
def fonts (body heading : String) (others : Entries) : Entries :=
  ("fontFamily", .text body) :: ("fontFamilyHeading", .text heading) :: others

/-- The fonts of the system. -/
def systemFonts : String :=
  "-apple-system, BlinkMacSystemFont, \"Segoe UI\", Roboto, \"Helvetica Neue\", Arial, sans-serif"

/-- Inter, and the fonts of the system after it. -/
def interFonts : String :=
  "\"Inter\", -apple-system, BlinkMacSystemFont, \"Segoe UI\", Roboto, sans-serif"

/-- Helvetica in its editions. -/
def helveticaFonts : String := "\"Helvetica Neue\", Helvetica, Arial, sans-serif"

/-- The tokens of the default theme. -/
def base : Tokens
  | .colors =>
      palette "#3b82f6" "#8b5cf6" "#f59e0b" "#ffffff" "#f9fafb" "#111827" "#6b7280" "#e5e7eb"
        "#ef4444" "#f59e0b" "#10b981"
  | .typography => fonts systemFonts systemFonts [
      ("baseFontSize", .text "16px"),
      ("lineHeight", .float 1.5),
      ("headingLineHeight", .float 1.2),
      ("fontWeightNormal", .int 400),
      ("fontWeightMedium", .int 500),
      ("fontWeightBold", .int 700)]
  | .spacing => [
      ("unit", .int 8),
      ("xs", .text "0.5rem"),
      ("sm", .text "1rem"),
      ("md", .text "1.5rem"),
      ("lg", .text "2rem"),
      ("xl", .text "3rem"),
      ("xxl", .text "4rem")]
  | .borderRadius => [
      ("none", .text "0"),
      ("sm", .text "0.25rem"),
      ("md", .text "0.5rem"),
      ("lg", .text "0.75rem"),
      ("xl", .text "1rem"),
      ("full", .text "9999px")]
  | .shadows => [
      ("sm", .text "0 1px 2px 0 rgba(0, 0, 0, 0.05)"),
      ("md", .text "0 4px 6px -1px rgba(0, 0, 0, 0.1), 0 2px 4px -1px rgba(0, 0, 0, 0.06)"),
      ("lg", .text "0 10px 15px -3px rgba(0, 0, 0, 0.1), 0 4px 6px -2px rgba(0, 0, 0, 0.05)"),
      ("xl", .text "0 20px 25px -5px rgba(0, 0, 0, 0.1), 0 10px 10px -5px rgba(0, 0, 0, 0.04)")]

/-- The tokens of a preset. -/
def tokens : Preset → Tokens
  | .default => base
  | .dark => base.override .colors
      (palette "#60a5fa" "#a78bfa" "#fbbf24" "#0f172a" "#1e293b" "#f1f5f9" "#94a3b8" "#334155"
        "#f87171" "#fbbf24" "#34d399")
  | .corporate =>
      (base.override .colors
        (palette "#1e40af" "#7c3aed" "#dc2626" "#ffffff" "#f8fafc" "#0f172a" "#475569" "#e2e8f0"
          "#dc2626" "#d97706" "#059669"))
        |>.override .typography (fonts interFonts interFonts [])
  | .playful =>
      (base.override .colors
        (palette "#ec4899" "#8b5cf6" "#10b981" "#fef3c7" "#fde68a" "#78350f" "#92400e" "#f59e0b"
          "#dc2626" "#f59e0b" "#10b981"))
        |>.override .typography
          (fonts "\"Comic Neue\", cursive, sans-serif" "\"Fredoka\", cursive, sans-serif" [])
        |>.override .borderRadius [
          ("sm", .text "0.5rem"),
          ("md", .text "1rem"),
          ("lg", .text "1.5rem"),
          ("xl", .text "2rem")]
  | .minimal =>
      (base.override .colors
        (palette "#000000" "#404040" "#000000" "#ffffff" "#fafafa" "#000000" "#666666" "#e0e0e0"
          "#ff0000" "#ff9800" "#4caf50"))
        |>.override .typography (fonts helveticaFonts helveticaFonts [
          ("fontWeightNormal", .int 300),
          ("fontWeightMedium", .int 400),
          ("fontWeightBold", .int 500)])
        |>.override .borderRadius [
          ("none", .text "0"),
          ("sm", .text "0"),
          ("md", .text "0"),
          ("lg", .text "0"),
          ("xl", .text "0"),
          ("full", .text "0")]

theorem mem_all (p : Preset) : p ∈ all := by cases p <;> decide

end Preset

/-- What a fault of a theme says. -/
def Fault.message : Fault → Text
  | .unknownTheme name => "Unknown theme '" ++ name ++ "'"
  | .unknownGroup name => "Unknown design token group '" ++ name ++ "'"
  | .unexpectedGroup name =>
      "ThemeStore.update_tokens() got an unexpected keyword argument '" ++ name ++ "'"
  | .notIterable typeName => "'" ++ typeName ++ "' object is not iterable"
  | .notSequence index =>
      "cannot convert dictionary update sequence element #" ++ Text.ofNat index ++
        " to a sequence"
  | .notPair index length =>
      "dictionary update sequence element #" ++ Text.ofNat index ++ " has length " ++
        Text.ofNat length ++ "; 2 is required"
  | .badKey typeName => "unhashable type: '" ++ typeName ++ "'"

/-- What may help with a fault of a theme. -/
def Fault.hint : Fault → Option Text
  | .unknownTheme _ =>
      some ("Available themes: " ++ Text.joinWith ", " (Preset.labels.map String.toList))
  | _ => none

end StaticSite.Theme
