import StaticSite.Proofs.Markup.Escaping
import StaticSite.Proofs.Stylesheet.Selectors
import StaticSite.Site.Document

/-! # The slots of a document

Every document is the same text around its pieces. What stands in the two slots for title and
description can neither begin nor end a tag or a value and is read as what it was written for, and
no other place of a document depends on it. All other pieces stand in it as they are, without the
blanks at their ends.
-/

namespace StaticSite.Site

open Markup (resolve tagDelimiters)
open Stylesheet (written written_append page_eq_written)

/-! ## Parts of a document -/

/-- What a document begins with, up to its title. -/
def upToTitle : Text :=
  Text.page ["<!DOCTYPE html>", "<html lang=\"en\">", "<head>", "    <meta charset=\"UTF-8\">",
    "    <meta name=\"viewport\" content=\"width=device-width, initial-scale=1.0\">"] ++
    "    <title>"

/-- What stands between the title and the description of a document. -/
def upToDescription : Text :=
  Text.page ["</title>"] ++ "    <meta name=\"description\" content=\""

/-- What stands in a document behind its description, with what is put into the head and the
section of the script. -/
def behindDescription (stylesheet markup head script : Text) : Text :=
  Text.page ["\">", "    <style>", stylesheet.trim, "    </style>"] ++ head ++
    Text.page ["</head>", "<body>", markup.trim] ++ script ++ Text.page ["</body>", "</html>"]

/-- What is written for a text so that it can neither begin nor end a tag or a value, and is read as
that text. -/
structure StandsFor (written t : Text) : Prop where
  harmless : ∀ c ∈ tagDelimiters, c ∉ written
  read : resolve written = t

/-- The section of a fragment that may be left out: its lines when it is there and not blank, and
nothing otherwise. -/
structure IsSection (fragment : Option Text) (lines : Text → List Text) (made : Text) : Prop where
  shown : ∀ t ∈ fragment, t.isBlank = false → made = Text.page (lines t.trim)
  hidden : (∀ t ∈ fragment, t.isBlank = true) → made = []

theorem standsFor_escapeField (t : Text) : StandsFor (Text.escapeField t) t where
  harmless _ delimiter := Markup.not_mem_escapeField delimiter t
  read := Markup.resolve_replaceEach Markup.resolves_fieldReference t

theorem isSection_optionalLines (fragment : Option Text) (lines : Text → List Text) :
    IsSection fragment lines (written (optionalLines fragment lines)) := by
  constructor
  · rintro t rfl visible
    simp only [optionalLines, visible, Bool.false_eq_true, ↓reduceIte, page_eq_written]
  · intro hidden
    cases fragment with
    | none => rfl
    | some t =>
      rw [optionalLines, if_pos (hidden t rfl)]
      rfl

/-! ## Whole documents -/

/-- A document is one text with slots for its pieces. -/
theorem document_eq_slots (p : Pieces) :
    document p = upToTitle ++ Text.escapeField p.title ++ upToDescription ++
      Text.escapeField p.description ++ behindDescription p.stylesheet p.markup
        (written (optionalLines p.headHtml fun t => [t]))
        (written (optionalLines p.script fun t => ["<script>", t, "</script>"])) := by
  rw [document, page_eq_written, documentLines, written_append, written_append, written_append,
    written_append, upToTitle, upToDescription, behindDescription]
  simp only [page_eq_written, written, List.flatMap_cons, List.flatMap_nil, List.append_assoc,
    List.append_nil]

/-- Title and description are what a document has in two slots that are empty without them, and
nothing else in it depends on them. The stylesheet and the markup stand in their places whatever they
are, what is put into the head and the script when they are not blank. -/
theorem document_slots (stylesheet markup : Text) (headHtml script : Option Text)
    (title description : Text) :
    ∃ first second head body, StandsFor first title ∧ StandsFor second description ∧
      IsSection headHtml (fun t => [t]) head ∧
      IsSection script (fun t => ["<script>", t, "</script>"]) body ∧
      document ⟨title, description, stylesheet, markup, script, headHtml⟩ =
        upToTitle ++ first ++ upToDescription ++ second ++
          behindDescription stylesheet markup head body ∧
      document ⟨[], [], stylesheet, markup, script, headHtml⟩ =
        upToTitle ++ upToDescription ++ behindDescription stylesheet markup head body := by
  refine ⟨_, _, _, _, standsFor_escapeField title, standsFor_escapeField description,
    isSection_optionalLines headHtml _, isSection_optionalLines script _, document_eq_slots _, ?_⟩
  have empty : Text.escapeField [] = [] := rfl
  rw [document_eq_slots, empty, List.append_nil, List.append_nil]

end StaticSite.Site
