import StaticSite.Proofs.Site.Hoisting
import StaticSite.Proofs.Text.Indenting
import StaticSite.Site.Script

/-! # What scripts carry

The block of a component has one section for each piece of behaviour that is present, and each
section carries its piece: taking the indentation of the section off gives the piece back. A
component without such pieces has no block, and a page has the blocks of its components in document
order between the helpers and the code for the whole page.
-/

namespace StaticSite.Site

open Widget (joinPresent)

/-- Whether a text shows something: some character of it is not blank. -/
def isVisible (s : String) : Bool := s.toList.any fun c => !isBlank c

/-- The pieces of behaviour that the code of a component can have. -/
inductive Behaviour
  | beforeMount
  | onMount
  | onClick
  | onHover
  | onScroll
  | javascript
  deriving DecidableEq, Repr

namespace Behaviour

/-- The pieces in the order of their sections. -/
def all : List Behaviour := [.beforeMount, .onMount, .onClick, .onHover, .onScroll, .javascript]

/-- A piece among the code of a component. -/
def code (c : CustomCode) : Behaviour → Option String
  | .beforeMount => c.beforeMount
  | .onMount => c.onMount
  | .onClick => c.onClick
  | .onHover => c.onHover
  | .onScroll => c.onScroll
  | .javascript => c.javascript

/-- The indentation of a piece in its section. -/
def indentation : Behaviour → Text
  | .onClick | .onHover => "    "
  | .onScroll => "      "
  | .beforeMount | .onMount | .javascript => "  "

/-- The lines of a section above its piece. -/
def above : Behaviour → List Text
  | .beforeMount => ["  // Before Mount"]
  | .onMount => ["  // On Mount"]
  | .onClick => ["  // Click handler", "  element.addEventListener('click', function(event) \x7b"]
  | .onHover => ["  // Hover handler", "  element.addEventListener('mouseenter', function(event) \x7b"]
  | .onScroll => [
      "  // Scroll handler",
      "  const scrollHandler = function() \x7b",
      "    const rect = element.getBoundingClientRect();",
      "    const inView = rect.top < window.innerHeight && rect.bottom > 0;",
      "    if (inView) \x7b"]
  | .javascript => ["  // Custom JavaScript"]

/-- The lines of a section below its piece. -/
def below : Behaviour → List Text
  | .onClick | .onHover => ["  \x7d);"]
  | .onScroll => [
      "    \x7d",
      "  \x7d;",
      "  window.addEventListener('scroll', scrollHandler);",
      "  scrollHandler(); // Check initial state"]
  | .beforeMount | .onMount | .javascript => []

/-- The pieces that are there and not blank, each with its text. -/
def present (c : CustomCode) : List (Behaviour × String) :=
  all.filterMap fun b => ((b.code c).filter isVisible).map fun s => (b, s)

end Behaviour

/-- A piece of behaviour as it stands in its section. -/
structure Carried where
  behaviour : Behaviour
  body : Text
  deriving DecidableEq, Repr

namespace Carried

/-- The lines of a section. -/
def lines (s : Carried) : List Text := s.behaviour.above ++ [s.body] ++ s.behaviour.below

/-- The text of a section. -/
def text (s : Carried) : Text := Text.unlines s.lines

/-- Whether a section carries a piece: its lines that are not blank are indented, and without the
indentation they are the piece, but for newlines at its ends. -/
structure Carries (s : Carried) (piece : String) : Prop where
  indented : ∀ line ∈ Text.cutLines s.body, Text.isBlank line = false →
    s.behaviour.indentation <+: line
  unindent : Text.unindent s.behaviour.indentation s.body = Text.trimNewlines piece.toList

/-- The section that is written for a piece. -/
def ofPiece (piece : Behaviour × String) : Carried :=
  ⟨piece.1, Text.indent piece.1.indentation (Text.trimNewlines piece.2.toList)⟩

theorem carries_ofPiece (piece : Behaviour × String) : (ofPiece piece).Carries piece.2 := by
  have unbroken : Text.Unbroken piece.1.indentation := by
    cases piece.1 <;> simp only [Text.Unbroken] <;> decide
  exact ⟨fun _ => Text.prefix_of_mem_cutLines_indent unbroken, Text.unindent_indent unbroken _⟩

theorem lines_ne_nil (s : Carried) : s.lines ≠ [] := by simp [lines]

end Carried

/-- The block of a component with the given sections, none without any: the lines that look its
element up and leave when there is none, the sections with an empty line between them, and the line
that closes the block. -/
def blockOf (id : String) (sections : List Carried) : Text :=
  if sections.isEmpty then []
  else Text.unlines [
    "// Custom code for #" ++ id,
    "(function() \x7b",
    "  const element = document.getElementById('" ++ id ++ "');",
    "  if (!element) return;",
    "",
    Text.joinWith "\n\n" (sections.map Carried.text),
    "\x7d)();"]

/-! ## Sections -/

/-- The sections in their order, each written for its piece. -/
theorem scriptSections_eq_flatMap (code : CustomCode) :
    scriptSections code = Behaviour.all.flatMap fun b =>
      sectionOf (b.code code) fun s => (Carried.ofPiece (b, s)).lines := by
  simp only [Behaviour.all, List.flatMap_cons, List.flatMap_nil, List.append_nil,
    ← List.append_assoc]
  rfl

theorem isPresent_some (s : String) : isPresent (some s) = isVisible s := List.not_all_eq_any_not

/-- A section is written when its piece is present. -/
theorem sectionOf_eq (code : Option String) (lines : String → List Text) :
    sectionOf code lines = ((code.filter isVisible).map lines).toList := by
  cases code with
  | none => rfl
  | some s =>
    rw [sectionOf, Option.filter_some, isPresent_some]
    split <;> rfl

/-- The sections of a block are those of the pieces that are present. -/
theorem scriptSections_eq (code : CustomCode) :
    scriptSections code = ((Behaviour.present code).map Carried.ofPiece).map Carried.lines := by
  simp only [scriptSections_eq_flatMap, sectionOf_eq, Behaviour.present, List.map_map,
    List.filterMap_eq_flatMap_toList, List.map_flatMap]
  congr 1
  funext b
  rw [Option.toList_map, Option.toList_map, List.map_map]
  rfl

theorem mem_present {code : CustomCode} {b : Behaviour} {s : String} :
    (b, s) ∈ Behaviour.present code ↔ b.code code = some s ∧ isVisible s = true := by
  have listed : b ∈ Behaviour.all := by cases b <;> decide
  simp [Behaviour.present, Option.filter_eq_some_iff, listed]

theorem present_eq_nil_iff (code : CustomCode) :
    Behaviour.present code = [] ↔ ∀ (b : Behaviour) (s : String), b.code code = some s →
      ∀ c ∈ s.toList, isBlank c = true := by
  simp [List.eq_nil_iff_forall_not_mem, mem_present, isVisible]

/-- There is a block when some piece is present. -/
theorem hasScript_eq_false_iff (code : CustomCode) :
    code.hasScript = false ↔ Behaviour.present code = [] := by
  have all : code.hasScript = Behaviour.all.any fun b => isPresent (b.code code) := rfl
  rw [all, Behaviour.present, List.any_eq_false, List.filterMap_eq_nil_iff]
  refine forall₂_congr fun b _ => ?_
  cases b.code code with
  | none => simp [isPresent]
  | some s => cases visible : isVisible s <;> simp [isPresent_some, visible]

/-! ## Blocks -/

theorem separateSections_ne_nil {sections : List Carried} (some : sections ≠ []) :
    separateSections (sections.map Carried.lines) ≠ [] := by
  match sections, some with
  | [last], _ => exact last.lines_ne_nil
  | first :: second :: rest, _ => simp [separateSections]

/-- One empty line stands between sections. -/
theorem unlines_separateSections (sections : List Carried) :
    Text.unlines (separateSections (sections.map Carried.lines)) =
      joinBlocks (sections.map Carried.text) := by
  induction sections with
  | nil => rfl
  | cons first rest ih =>
    by_cases last : rest = []
    · subst last
      rfl
    · have more := separateSections_ne_nil last
      have split : separateSections ((first :: rest).map Carried.lines) =
          first.lines ++ ([[]] ++ separateSections (rest.map Carried.lines)) := by
        cases rest with
        | nil => exact absurd rfl last
        | cons second others => rfl
      rw [split, Text.unlines_append first.lines_ne_nil (by simp), Text.unlines_append (by simp) more, ih,
        joinBlocks, joinBlocks, List.map_cons, Text.joinWith_cons (by simpa using last)]
      rfl

/-- The block of a component has the sections of its pieces. -/
theorem componentScript_eq_blockOf (id : String) (code : CustomCode) :
    componentScript id code = blockOf id ((Behaviour.present code).map Carried.ofPiece) := by
  cases scripted : code.hasScript with
  | false =>
    rw [componentScript, scripted, (hasScript_eq_false_iff code).mp scripted]
    rfl
  | true =>
    have some : (Behaviour.present code).map Carried.ofPiece ≠ [] := by
      intro none
      have := (hasScript_eq_false_iff code).mpr (List.map_eq_nil_iff.mp none)
      rw [scripted] at this
      cases this
    have header : scriptHeader id ≠ [] := by simp [scriptHeader]
    rw [componentScript, if_pos scripted, scriptSections_eq]
    dsimp only
    rw [List.append_assoc, Text.unlines_append header (by simp),
      Text.unlines_append (separateSections_ne_nil some) (by simp), unlines_separateSections, blockOf,
      if_neg (by rwa [List.isEmpty_iff])]
    simp [scriptHeader, Text.unlines, Text.joinWith, joinBlocks]

theorem blockOf_eq_nil_iff (id : String) (sections : List Carried) :
    blockOf id sections = [] ↔ sections = [] := by
  unfold blockOf
  split
  · next none => simpa using none
  · next some =>
    simp only [List.isEmpty_iff] at some
    simp [some, Text.unlines, Text.joinWith]

/-! ## Pages -/

/-- The block of a component, none for one without code of its own. -/
def ownScript (c : Component) : Text := c.props.customCode.elim [] (componentScript c.id)

/-- The helpers of a tree: one for each trigger that needs one and that some animation has. -/
def helpers (tree : List Component) : List Text :=
  ([("onScroll", scrollHelper), ("onClick", clickHelper)].filter fun (trigger, _) =>
    (Tree.preorderAll tree).any fun c => c.props.animations.any (·.trigger == trigger)).map (·.2)

/-- The code for a whole page as it stands in its script, under a heading; none if it is blank. -/
def pageCode : Option String → List Text
  | some s => if isVisible s then ["/* Global Custom JavaScript */\n" ++ s] else []
  | none => []

theorem componentScripts_eq (tree : List Component) :
    componentScripts tree = ((Tree.preorderAll tree).map ownScript).filter (!·.isEmpty) := by
  rw [componentScripts, Tree.walk_eq_preorderAll, List.filter_map, ← List.filterMap_eq_map,
    List.filterMap_filter]
  congr 1
  funext c
  unfold ownScript
  cases given : c.props.customCode <;> simp [given]

theorem joinBlocks_filter (blocks : List Text) :
    joinBlocks (blocks.filter (!·.isEmpty)) = joinPresent "\n\n" blocks := rfl

theorem filter_helpers (tree : List Component) :
    (helpers tree).filter (!·.isEmpty) = helpers tree := by
  refine List.filter_eq_self.mpr fun helper member => ?_
  obtain ⟨entry, listed, rfl⟩ := List.mem_map.mp member
  have written : ∀ h ∈ [("onScroll", scrollHelper), ("onClick", clickHelper)],
      (!h.2.isEmpty) = true := by decide
  exact written entry (List.mem_of_mem_filter listed)

theorem filter_pageCode (javascript : Option String) :
    (pageCode javascript).filter (!·.isEmpty) = pageCode javascript := by
  cases javascript with
  | none => rfl
  | some s => cases visible : isVisible s <;> simp [pageCode, visible]

theorem runtimeHelpers_eq (tree : List Component) :
    runtimeHelpers tree = joinPresent "\n\n" (helpers tree) := by
  rw [← joinBlocks_filter, filter_helpers]
  simp only [runtimeHelpers, Tree.hasTrigger, Tree.walk_eq_preorderAll, helpers, List.filter_cons,
    List.filter_nil]
  split <;> split <;> rfl

theorem globalScript_eq (javascript : Option String) :
    globalScript javascript = joinPresent "\n\n" (pageCode javascript) := by
  rw [← joinBlocks_filter, filter_pageCode]
  cases javascript with
  | none => rfl
  | some s =>
    simp only [globalScript, pageCode, isPresent_some]
    split <;> rfl

/-- The script of a page has the helpers, the blocks in document order and the code for the whole
page, with one empty line between them. -/
theorem script_eq (tree : List Component) (javascript : Option String) :
    script tree javascript = joinBlocks (helpers tree ++
      ((Tree.preorderAll tree).map ownScript).filter (!·.isEmpty) ++ pageCode javascript) := by
  have parts : script tree javascript = joinPresent "\n\n" [joinPresent "\n\n" (helpers tree),
      joinPresent "\n\n" ((Tree.preorderAll tree).map ownScript),
      joinPresent "\n\n" (pageCode javascript)] := by
    rw [script, joinBlocks_filter, runtimeHelpers_eq, componentScripts_eq, joinBlocks_filter,
      globalScript_eq]
  rw [parts, ← List.nil_append [joinPresent _ _, _, _], Widget.joinPresent_splice,
    List.nil_append, Widget.joinPresent_splice, ← List.append_assoc, Widget.joinPresent_splice,
    List.append_nil, ← joinBlocks_filter, List.filter_append, List.filter_append, filter_helpers,
    filter_pageCode, List.append_assoc]

/-- The block of a component carries the pieces of behaviour that are present, each in a section of
its own and in their order, with one empty line between sections, and has nothing else but the lines
around them. It is empty when every piece is absent or blank. The script of a page has the helpers,
the blocks that are not empty, in document order, and the code for the whole page unless it is
blank. -/
theorem script_carries :
    (∀ (id : String) (code : CustomCode),
      (∃ sections : List Carried, componentScript id code = blockOf id sections ∧
        List.Forall₂ (fun s piece => s.behaviour = piece.1 ∧ s.Carries piece.2) sections
          (Behaviour.present code)) ∧
      (componentScript id code = [] ↔ ∀ (b : Behaviour) (s : String), b.code code = some s →
        ∀ c ∈ s.toList, isBlank c = true)) ∧
    ∀ (tree : List Component) (javascript : Option String),
      script tree javascript = Text.joinWith "\n\n" (helpers tree ++
        ((Tree.preorderAll tree).map ownScript).filter (!·.isEmpty) ++ pageCode javascript) := by
  refine ⟨fun id code => ⟨⟨_, componentScript_eq_blockOf id code, ?_⟩, ?_⟩, script_eq⟩
  · rw [List.forall₂_map_left_iff, List.forall₂_same]
    exact fun piece _ => ⟨rfl, Carried.carries_ofPiece piece⟩
  · rw [componentScript_eq_blockOf, blockOf_eq_nil_iff, List.map_eq_nil_iff, present_eq_nil_iff]

/-- A component with three pieces of behaviour, one of them blank, around one without any. -/
def lively : Component := {
  id := "go", type := "button"
  props := { customCode := some {
    onClick := some "\nif (x) \x7b\n\n  stop();\n\x7d\n", beforeMount := some " \n",
    javascript := some "start();" } }
  children := [{ id := "still", type := "text" }] }

theorem script_carries_lively :
    (∃ sections : List Carried,
      ownScript lively = blockOf "go" sections ∧
        List.Forall₂ (fun s piece => s.behaviour = piece.1 ∧ s.Carries piece.2) sections
          [(.onClick, "\nif (x) \x7b\n\n  stop();\n\x7d\n"), (.javascript, "start();")]) ∧
      script [lively] (some "done();\n") = Text.unlines [
        "// Custom code for #go",
        "(function() \x7b",
        "  const element = document.getElementById('go');",
        "  if (!element) return;",
        "",
        "  // Click handler",
        "  element.addEventListener('click', function(event) \x7b",
        "    if (x) \x7b",
        "",
        "      stop();",
        "    \x7d",
        "  \x7d);",
        "",
        "  // Custom JavaScript",
        "  start();",
        "\x7d)();",
        "",
        "/* Global Custom JavaScript */",
        "done();",
        ""] ∧
      script lively.children (some " \n") = [] := by
  refine ⟨?_, ?_, ?_⟩
  · obtain ⟨sections, block, carried⟩ := (script_carries.1 "go" (lively.props.customCode.getD {})).1
    exact ⟨sections, block, carried⟩
  · rw [script_carries.2]
    decide +kernel
  · rw [script_carries.2]
    decide +kernel

end StaticSite.Site
