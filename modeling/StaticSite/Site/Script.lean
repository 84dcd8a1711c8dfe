import StaticSite.Text.Lines
import StaticSite.Tree.Walk

/-! # The script of a page

Helpers for animations that start by scrolling or clicking, a block for every component that has
behaviour of its own, and code for the whole page.
-/

namespace StaticSite.Site

/-- The helper for animations that start when they come into view. -/
def scrollHelper : Text := Text.unlines [
  "// Scroll animations",
  "const scrollObserver = new IntersectionObserver((entries) => \x7b",
  "  entries.forEach((entry) => \x7b",
  "    if (entry.isIntersecting) \x7b",
  "      entry.target.classList.add('in-view');",
  "    \x7d",
  "  \x7d);",
  "\x7d, \x7b",
  "  threshold: 0.5,",
  "  rootMargin: '0px'",
  "\x7d);",
  "",
  "// Observe all elements with scroll animations",
  "document.querySelectorAll('[data-scroll-animation]').forEach((element) => \x7b",
  "  scrollObserver.observe(element);",
  "\x7d);"]

/-- The helper for animations that start with a click. -/
def clickHelper : Text := Text.unlines [
  "// Click animations",
  "document.querySelectorAll('[data-click-animation]').forEach((element) => \x7b",
  "  element.addEventListener('click', function() \x7b",
  "    this.classList.remove('clicked');",
  "    // Force reflow",
  "    void this.offsetWidth;",
  "    this.classList.add('clicked');",
  "",
  "    // Remove class after animation completes",
  "    const animationDuration = parseInt(this.getAttribute('data-animation-duration') || '1000');",
  "    setTimeout(() => \x7b",
  "      this.classList.remove('clicked');",
  "    \x7d, animationDuration);",
  "  \x7d);",
  "\x7d);"]

/-- Puts an empty line between blocks. -/
def joinBlocks (blocks : List Text) : Text := Text.joinWith "\n\n" blocks

/-- The helpers that a tree needs. -/
def runtimeHelpers (tree : List Component) : Text :=
  joinBlocks ((if Tree.hasTrigger tree "onScroll" then [scrollHelper] else []) ++
    (if Tree.hasTrigger tree "onClick" then [clickHelper] else []))

/-- A piece of code at a depth, without newlines at its ends. -/
def snippet (code : String) (depth : Nat) : Text :=
  Text.indent (List.replicate depth "  ".toList).flatten (Text.trimNewlines code.toList)

/-- The lines of a section for a piece of code that is present. -/
def sectionOf (code : Option String) (lines : String → List Text) : List (List Text) :=
  match code with
  | some s => if isPresent (some s) then [lines s] else []
  | none => []

/-- A section that handles an event. -/
def handlerLines (title event : String) (code : String) : List Text := [
  "  // " ++ title ++ " handler",
  "  element.addEventListener('" ++ event ++ "', function(event) \x7b",
  snippet code 2,
  "  \x7d);"]

/-- A section that runs while the component is in view. -/
def scrollLines (code : String) : List Text := [
  "  // Scroll handler",
  "  const scrollHandler = function() \x7b",
  "    const rect = element.getBoundingClientRect();",
  "    const inView = rect.top < window.innerHeight && rect.bottom > 0;",
  "    if (inView) \x7b",
  snippet code 3,
  "    \x7d",
  "  \x7d;",
  "  window.addEventListener('scroll', scrollHandler);",
  "  scrollHandler(); // Check initial state"]

/-- The sections of a component's block, one for each piece of behaviour that is present. -/
def scriptSections (code : CustomCode) : List (List Text) :=
  sectionOf code.beforeMount (fun s => ["  // Before Mount", snippet s 1]) ++
    sectionOf code.onMount (fun s => ["  // On Mount", snippet s 1]) ++
    sectionOf code.onClick (handlerLines "Click" "click") ++
    sectionOf code.onHover (handlerLines "Hover" "mouseenter") ++
    sectionOf code.onScroll scrollLines ++
    sectionOf code.javascript (fun s => ["  // Custom JavaScript", snippet s 1])

/-- The lines of a component's block before its sections. -/
def scriptHeader (id : String) : List Text := [
  "// Custom code for #" ++ id,
  "(function() \x7b",
  "  const element = document.getElementById('" ++ id ++ "');",
  "  if (!element) return;",
  ""]

/-- Puts an empty line between sections. -/
def separateSections : List (List Text) → List Text
  | [] => []
  | [last] => last
  | first :: rest => first ++ [] :: separateSections rest

/-- The block of a component, empty when it has no behaviour. -/
def componentScript (id : String) (code : CustomCode) : Text :=
  if code.hasScript then
    let ending : Text := "\x7d)();"
    Text.unlines (scriptHeader id ++ separateSections (scriptSections code) ++ [ending])
  else []

/-- The blocks of the components in document order. -/
def componentScripts (tree : List Component) : List Text :=
  (Tree.walk tree).filterMap fun c =>
    c.props.customCode.bind fun code =>
      let block := componentScript c.id code
      if block.isEmpty then none else some block

/-- The code for the whole page under a heading. -/
def globalScript (javascript : Option String) : Text :=
  if isPresent javascript then "/* Global Custom JavaScript */\n" ++ javascript.getD "" else []

/-- The script of a page. -/
def script (tree : List Component) (javascript : Option String) : Text :=
  joinBlocks ([runtimeHelpers tree, joinBlocks (componentScripts tree),
    globalScript javascript].filter (!·.isEmpty))

end StaticSite.Site
