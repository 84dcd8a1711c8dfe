import StaticSite.Formatting.Outcome
import StaticSite.Site.Document
import StaticSite.Site.Markup
import StaticSite.Site.Script
import StaticSite.Site.Stylesheet

/-! # Generating a site

From a tree to the three texts of a site: the markup, the stylesheet and the whole page, each laid
out.
-/

namespace StaticSite.Site

open Formatting (tidy)

/-- What generation is given. -/
structure Request where
  tree : List Component
  name : Text
  options : GenerationOptions := {}
  description : Text := defaultDescription
  style : Style := .standard

/-- The texts of a site. -/
structure Texts where
  html : Text
  css : Text
  fullPage : Text
  deriving DecidableEq, Repr

/-- The document of a page from its markup and its stylesheet as they are laid out. -/
def pageDocument (r : Request) (html css : Text) : Text :=
  document
    { title := r.name
      description := r.description
      stylesheet := css
      markup := html
      script := some (script r.tree (r.options.pageCode.bind (·.javascript)))
      headHtml := (r.options.pageCode.bind (·.headHtml)).map String.toList }

/-- The site of a tree. -/
def generate (r : Request) : Except Widget.Fault Texts := do
  let rendered ← markup r.tree
  let html := tidy .markup r.style rendered
  let css := tidy .stylesheet r.style (stylesheet r.tree r.options)
  pure ⟨html, css, tidy .markup r.style (pageDocument r html css)⟩

/-- The notices of generating a site. -/
def generateNotices (r : Request) : List Notice :=
  let first := markupNotices r.tree
  match markup r.tree with
  | .error _ => first
  | .ok rendered =>
      let styles := stylesheet r.tree r.options
      let html := tidy .markup r.style rendered
      let css := tidy .stylesheet r.style styles
      first ++ stylesheetNotices r.tree ++ Formatting.notices .markup r.style rendered ++
        Formatting.notices .stylesheet r.style styles ++
        Formatting.notices .markup r.style (pageDocument r html css)

end StaticSite.Site
