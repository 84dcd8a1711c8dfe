import StaticSite.Text.Escaped
import StaticSite.Text.Lines

/-! # The document of a page

The one shape that every page has. Title and description are escaped; all other pieces stand in it
as they are, at the start of a line, so that white space that counts is kept.
-/

namespace StaticSite.Site

/-- The pieces of a document. -/
structure Pieces where
  title : Text
  description : Text
  stylesheet : Text
  markup : Text
  script : Option Text
  headHtml : Option Text
  deriving DecidableEq, Repr

/-- The description of a page that has none of its own. -/
def defaultDescription : String := "Built with Pagecraft"

/-- The lines of a piece that may be left out: none when it is absent or blank. -/
def optionalLines (piece : Option Text) (lines : Text → List Text) : List Text :=
  match piece with
  | some t => if t.isBlank then [] else lines t.trim
  | none => []

/-- The lines of a document. -/
def documentLines (p : Pieces) : List Text :=
  let start : List Text := [
    "<!DOCTYPE html>",
    "<html lang=\"en\">",
    "<head>",
    "    <meta charset=\"UTF-8\">",
    "    <meta name=\"viewport\" content=\"width=device-width, initial-scale=1.0\">",
    "    <title>" ++ Text.escapeField p.title ++ "</title>",
    "    <meta name=\"description\" content=\"" ++ Text.escapeField p.description ++ "\">",
    "    <style>",
    p.stylesheet.trim,
    "    </style>"]
  let middle : List Text := ["</head>", "<body>", p.markup.trim]
  let ending : List Text := ["</body>", "</html>"]
  start ++ optionalLines p.headHtml (fun t => [t]) ++ middle ++
    optionalLines p.script (fun t => ["<script>", t, "</script>"]) ++ ending

/-- The document of a page. -/
def document (p : Pieces) : Text := Text.page (documentLines p)

end StaticSite.Site
