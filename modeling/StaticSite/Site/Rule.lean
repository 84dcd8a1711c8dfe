import StaticSite.Site.Property
import StaticSite.Text.Lines
import StaticSite.Tree.Component
import StaticSite.Widget.Kind

/-! # Style rules of components

The rules of one component: its base styles, a media query for each variant that has any, and
fixed rules of its kind, such as hover states and the parts of blocks.
-/

namespace StaticSite.Rule

open Property

/-- The lines of a block around lines. -/
def blockLines (indent start : Text) (body : List Text) : List Text :=
  (indent ++ start ++ " \x7b") :: body ++ [indent ++ "\x7d"]

/-- A block of declarations. -/
def declarationBlock (indent start : Text) (declarations : List Declaration) : List Text :=
  blockLines indent start (declarations.map (Declaration.line (indent ++ "  ")))

/-- The selector of a component. -/
def selector (id : String) : Text := '#' :: id.toList

/-- The variants that have a media query, with the width from which they apply. -/
def breakpoints : List (String × String) :=
  [("sm", "640px"), ("md", "768px"), ("lg", "1024px"), ("xl", "1280px")]

/-- The declarations of a component's base styles. -/
def baseDeclarations (c : Component) : List Declaration :=
  c.styles.base.map fun (name, value) => .ofProperty name value

/-- The declarations of a variant of a component's styles. -/
def variantDeclarations (c : Component) (variant : String) : List Declaration :=
  (c.styles.variant variant).map fun (name, value) => .ofRaw name value

/-- The rule of a component's base styles. -/
def base (c : Component) : List Text :=
  let declarations := baseDeclarations c
  if declarations.isEmpty then []
  else [Text.unlines (declarationBlock [] (selector c.id) declarations)]

/-- The media query of a variant. -/
def media (c : Component) (variant width : String) : List Text :=
  let declarations := variantDeclarations c variant
  if declarations.isEmpty then []
  else
    [Text.unlines (blockLines [] ("@media (min-width: " ++ width ++ ")")
      (declarationBlock "  " (selector c.id) declarations))]

/-- The base rule and the media queries of a component. -/
def responsive (c : Component) : Text :=
  Text.unlines (base c ++ breakpoints.flatMap fun (variant, width) => media c variant width)

/-! ## Rules of kinds -/

/-- A fixed rule: what follows the component's selector, and declarations as text. -/
structure Fixed where
  part : String
  declarations : List String

/-- The lines of a fixed rule. -/
def Fixed.text (id : String) (rule : Fixed) : Text :=
  Text.unlines (blockLines [] (selector id ++ rule.part)
    (rule.declarations.map fun (d : String) => ("  " ++ d ++ ";" : Text)))

/-- The outline of a form field that has the focus. -/
def focus : Fixed :=
  ⟨":focus", ["outline: none", "border-color: #5b21b6",
    "box-shadow: 0 0 0 3px rgba(91, 33, 182, 0.1)"]⟩

/-- The size of a box or a button to check. -/
def checkSize (kind : String) : Fixed :=
  ⟨" input[type=\"" ++ kind ++ "\"]", ["width: 18px", "height: 18px", "cursor: pointer"]⟩

/-- The fixed rules of a kind of widget. -/
def fixed : Widget → List Fixed
  | .button => [⟨":hover", ["opacity: 0.9", "transform: translateY(-1px)"]⟩]
  | .link => [⟨":hover", ["opacity: 0.8"]⟩]
  | .hero => [
      ⟨" h1", ["font-size: 48px", "margin-bottom: 16px", "color: #1F2937"]⟩,
      ⟨" p", ["font-size: 20px", "margin-bottom: 32px", "color: #6B7280"]⟩,
      ⟨" .hero-btn", ["padding: 14px 32px", "background: #3B82F6", "color: white",
        "border: none", "border-radius: 8px", "font-size: 18px", "cursor: pointer",
        "transition: all 0.2s"]⟩,
      ⟨" .hero-btn:hover", ["background: #2563EB", "transform: translateY(-2px)"]⟩]
  | .features => [
      ⟨" .features-grid", ["display: grid",
        "grid-template-columns: repeat(auto-fit, minmax(250px, 1fr))", "gap: 40px",
        "max-width: 1200px", "margin: 0 auto"]⟩,
      ⟨" .feature-item", ["text-align: center"]⟩,
      ⟨" .feature-icon", ["font-size: 48px", "margin-bottom: 16px"]⟩,
      ⟨" .feature-item h3", ["font-size: 24px", "margin-bottom: 8px", "color: #1F2937"]⟩,
      ⟨" .feature-item p", ["color: #6B7280", "line-height: 1.6"]⟩]
  | .callToAction => [
      ⟨" .cta-content", ["max-width: 600px", "margin: 0 auto"]⟩,
      ⟨" h2", ["font-size: 36px", "margin-bottom: 16px"]⟩,
      ⟨" p", ["font-size: 18px", "margin-bottom: 32px", "opacity: 0.95"]⟩,
      ⟨" .cta-btn", ["padding: 14px 32px", "background: white", "color: #3B82F6",
        "border: none", "border-radius: 8px", "font-size: 18px", "font-weight: 600",
        "cursor: pointer", "transition: all 0.2s"]⟩,
      ⟨" .cta-btn:hover", ["transform: translateY(-2px)",
        "box-shadow: 0 10px 20px rgba(0,0,0,0.1)"]⟩]
  | .footer => [
      ⟨" .footer-links", ["margin-bottom: 16px"]⟩,
      ⟨" .footer-link", ["color: #9CA3AF", "text-decoration: none", "margin: 0 8px",
        "transition: color 0.2s"]⟩,
      ⟨" .footer-link:hover", ["color: white"]⟩,
      ⟨" .footer-copyright", ["color: #6B7280", "font-size: 14px"]⟩]
  | .navigation => [
      ⟨" .nav-container", ["max-width: 1200px", "margin: 0 auto", "display: flex",
        "justify-content: space-between", "align-items: center"]⟩,
      ⟨" .nav-logo", ["font-size: 24px", "font-weight: bold", "color: #1F2937"]⟩,
      ⟨" .nav-links", ["display: flex", "gap: 32px"]⟩,
      ⟨" .nav-link", ["color: #4B5563", "text-decoration: none", "transition: color 0.2s"]⟩,
      ⟨" .nav-link:hover", ["color: #3B82F6"]⟩]
  | .input | .textarea | .select => [focus]
  | .checkbox => [checkSize "checkbox"]
  | .radio => [
      ⟨" .radio-option", ["display: flex", "align-items: center", "gap: 8px",
        "cursor: pointer"]⟩,
      checkSize "radio"]
  | .label => [⟨" .required-marker", ["color: #ef4444"]⟩]
  | .submitButton => [
      ⟨":hover:not(:disabled)", ["background-color: #4c1d95", "transform: translateY(-1px)"]⟩,
      ⟨":disabled", ["opacity: 0.5", "cursor: not-allowed"]⟩]
  | .container | .region | .grid | .flex | .spacer | .heading | .text | .image | .form
  | .formGroup => []

/-- The rules of a component of a kind. -/
def component (w : Widget) (c : Component) : Text :=
  let own := responsive c
  Text.unlines ((if own.isEmpty then [] else [own]) ++ (fixed w).map (Fixed.text c.id))

end StaticSite.Rule
