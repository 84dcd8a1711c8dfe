import StaticSite.Proofs.Markup.Blocks
import StaticSite.Proofs.Result
import StaticSite.Proofs.Site.Failure

/-! # The page of a site

The document of a page is one markup text around the layouts of its fragments. It can be laid out
when each fragment can stand in any page: the fragments are regular, and no raw content ends early.
A fragment that is its own layout need not be regular: behind an attribute without a value, one whose
name starts with an equals sign is read as a value as soon as the page has a quote to end it.
-/

namespace StaticSite.Site

open Markup hiding format
open Stylesheet (written_append page_eq_written accepted_of_format)

/-! ## The template -/

theorem readsBack_fieldReference : ReadsBack Text.fieldReference := by
  intro c
  by_cases double : c = '"'
  · subst double
    exact fun late rest => rfl
  · by_cases single : c = '\''
    · subst single
      exact fun late rest => rfl
    · have same : Text.fieldReference c = Text.contentReference c := by
        rw [Text.fieldReference]
        · exact double
        · exact single
      rw [same]
      exact readsBack_contentReference c

theorem sound_none : SoundAttributes [] := ⟨by simp [Fields.keys], by simp⟩

theorem separate_none : TagAttribute.Separate (([] : Attributes).map (attributeTag true)) := trivial

/-- An element without attributes is whole when its content is. -/
theorem whole_plainElement {name : Text} (named : ElementName name)
    (notRaw : rawElements.elem name = false) (notClosing : selfClosingElements.elem name = false)
    {x : Text} (inside : Whole x) : Whole (tagText name [' '] [] [] false ++ x ++ endTag name) :=
  whole_element sound_none separate_none spacing_space.1 named notRaw notClosing inside

/-- A raw element without attributes is whole when its content has no end tag and can be laid out. -/
theorem whole_plainRawElement {name : Text} (raw : name ∈ rawElements) {x : Text}
    (quiet : RawContent name x) (fit : name = "style" → FitSheet x) :
    Whole (tagText name [' '] [] [] false ++ x ++ endTag name) :=
  whole_rawElement sound_none separate_none spacing_space.1 raw quiet fit

theorem sound_quoted (name value : Text) (some : name ≠ [])
    (chars : ∀ c ∈ name, isAttributeChar c = true) (inside : '"' ∉ value) :
    TagAttribute.Sound ⟨name, .some ('"', value)⟩ := by
  refine ⟨.of_chars some chars, fun v found => ?_⟩
  obtain rfl := Option.some.inj found
  exact ⟨rfl, inside⟩

theorem whole_spaces : Whole "    " := .plain (by decide)

/-- The tag of a `meta` element is whole. -/
theorem whole_metaTag {as : List TagAttribute} (sound : ∀ a ∈ as, a.Sound)
    (separate : TagAttribute.Separate as) : Whole (tagText "meta" [' '] [] as false) :=
  whole_selfClosingTag ⟨⟨'m', rfl, by decide⟩, by decide⟩ (by decide) (by decide) spacing_space.1 sound
    separate

/-- The `meta` elements of a document. -/
theorem whole_metas (description : Text) : Whole "    <meta charset=\"UTF-8\">" ∧
    Whole "    <meta name=\"viewport\" content=\"width=device-width, initial-scale=1.0\">" ∧
    Whole ("    <meta name=\"description\" content=\"" ++ Text.escapeField description ++ "\">") := by
  have apart (a b : TagAttribute) (v : Char × Text) (some : a.value = .some v) :
      TagAttribute.Separate [a, b] := ⟨fun none => by simp [some] at none, trivial⟩
  refine ⟨?_, ?_, ?_⟩
  · have charset := sound_quoted "charset" "UTF-8" (by decide) (by decide) (by decide)
    have tag := whole_metaTag (List.forall_mem_singleton.mpr charset) trivial
    simpa [tagText, TagAttribute.text, TagAttribute.valueText, endingText] using
      whole_spaces.append tag
  · have first := sound_quoted "name" "viewport" (by decide) (by decide) (by decide)
    have second := sound_quoted "content" "width=device-width, initial-scale=1.0" (by decide)
      (by decide) (by decide)
    have tag := whole_metaTag
      (List.forall_mem_cons.mpr ⟨first, List.forall_mem_singleton.mpr second⟩) (apart _ _ _ rfl)
    simpa [tagText, TagAttribute.text, TagAttribute.valueText, endingText] using
      whole_spaces.append tag
  · have first := sound_quoted "name" "description" (by decide) (by decide) (by decide)
    have second := sound_quoted "content" (Text.escapeField description) (by decide) (by decide)
      (not_mem_escapeField (by decide) description)
    have tag := whole_metaTag
      (List.forall_mem_cons.mpr ⟨first, List.forall_mem_singleton.mpr second⟩) (apart _ _ _ rfl)
    simpa [tagText, TagAttribute.text, TagAttribute.valueText, endingText] using
      whole_spaces.append tag

/-- The title of a document. -/
theorem whole_title (title : Text) : Whole ("    <title>" ++ Text.escapeField title ++ "</title>") := by
  have named : ElementName "title" := ⟨⟨⟨'t', rfl, by decide⟩, by decide⟩, by decide, by decide⟩
  have element := whole_plainElement named (by decide) (by decide)
    (.escaped readsBack_fieldReference title)
  simpa [tagText, endingText, endTag, Text.escapeField] using whole_spaces.append element

/-- The style element of a document. -/
theorem whole_style {sheet : Text} (quiet : RawContent "style" sheet) (fit : FitSheet sheet) :
    Whole ("    <style>" ++ ['\n'] ++ sheet.trim ++ ['\n'] ++ "    </style>") := by
  have spaces : ∀ c ∈ ['\n', ' ', ' ', ' ', ' '], isBlank c = true := by decide
  have words : Text.words sheet =
      Text.words (['\n'] ++ (sheet.trim ++ ['\n', ' ', ' ', ' ', ' '])) := by
    rw [Text.words_blanks_append (by decide), Text.words_append_blanks spaces, Text.words_trim]
  have element := whole_plainRawElement (by decide) (quiet.of_words (by decide) words)
    fun _ => fit.of_words words
  simpa [tagText, endingText, endTag] using whole_spaces.append element

/-- The script element of a document. -/
theorem whole_script {script : Text} (quiet : RawContent "script" script) :
    Whole ("<script>" ++ ['\n'] ++ script.trim ++ ['\n'] ++ "</script>") := by
  have words : Text.words script = Text.words (['\n'] ++ (script.trim ++ ['\n'])) := by
    rw [Text.words_blanks_append (by decide), Text.words_append_blanks (by decide), Text.words_trim]
  have element := whole_plainRawElement (by decide)
    (quiet.of_words (by decide) words) fun same => absurd same (by decide)
  simpa [tagText, endingText, endTag] using element

theorem elementName_frames : ElementName "html" ∧ ElementName "head" ∧ ElementName "body" :=
  ⟨⟨⟨⟨'h', rfl, by decide⟩, by decide⟩, by decide, by decide⟩,
    ⟨⟨⟨'h', rfl, by decide⟩, by decide⟩, by decide, by decide⟩,
    ⟨⟨⟨'b', rfl, by decide⟩, by decide⟩, by decide, by decide⟩⟩

/-- The elements around the head, the body and the whole of a document. -/
theorem whole_frames {x : Text} (inside : Whole x) : Whole ("<head>" ++ x ++ "</head>") ∧
    Whole ("<body>" ++ x ++ "</body>") ∧ Whole ("<html lang=\"en\">" ++ x ++ "</html>") := by
  obtain ⟨root, head, body⟩ := elementName_frames
  refine ⟨?_, ?_, ?_⟩
  · simpa [tagText, endingText, endTag] using whole_plainElement head (by decide) (by decide) inside
  · simpa [tagText, endingText, endTag] using whole_plainElement body (by decide) (by decide) inside
  · have sound : SoundAttributes [("lang".toList, "en".toList)] :=
      ⟨by simp [Fields.keys], by simpa using ⟨.of_chars (by decide) (by decide), by decide⟩⟩
    have separate : TagAttribute.Separate
        ([("lang".toList, "en".toList)].map (attributeTag false)) := trivial
    have element := whole_element sound separate spacing_space.1 root (by decide) (by decide) inside
    have tag : tagText "html" [' '] [] ([("lang".toList, "en".toList)].map (attributeTag false)) false =
        "<html lang=\"en\">" := by decide
    exact tag ▸ element

/-! ## Documents -/

/-- What a document has in its head of its own. -/
def headTemplate (p : Pieces) : Text :=
  ['\n'] ++ "    <meta charset=\"UTF-8\">" ++ ['\n'] ++
    "    <meta name=\"viewport\" content=\"width=device-width, initial-scale=1.0\">" ++ ['\n'] ++
    ("    <title>" ++ Text.escapeField p.title ++ "</title>") ++ ['\n'] ++
    ("    <meta name=\"description\" content=\"" ++ Text.escapeField p.description ++ "\">") ++ ['\n'] ++
    ("    <style>" ++ ['\n'] ++ p.stylesheet.trim ++ ['\n'] ++ "    </style>") ++ ['\n']

/-- What stands in the head of a document. -/
def headContent (p : Pieces) : Text :=
  headTemplate p ++ Stylesheet.written (optionalLines p.headHtml fun t => [t])

/-- What stands in the body of a document. -/
def bodyContent (p : Pieces) : Text :=
  ['\n'] ++ p.markup.trim ++ ['\n'] ++
    Stylesheet.written (optionalLines p.script fun t => ["<script>", t, "</script>"])

/-- A document is an element around a head and a body. -/
theorem document_eq (p : Pieces) : document p = "<!DOCTYPE html>" ++ ['\n'] ++
    ("<html lang=\"en\">" ++ (['\n'] ++ ("<head>" ++ headContent p ++ "</head>") ++ ['\n'] ++
      ("<body>" ++ bodyContent p ++ "</body>") ++ ['\n']) ++ "</html>") ++ ['\n'] := by
  rw [document, page_eq_written, documentLines]
  rw [written_append, written_append, written_append, written_append, headContent, headTemplate,
    bodyContent]
  simp only [Stylesheet.written, List.flatMap_cons, List.flatMap_nil, List.append_assoc,
    List.append_nil]

theorem whole_optional {piece : Option Text} {lines : Text → List Text}
    (each : ∀ t ∈ piece, Whole (Stylesheet.written (lines t.trim))) :
    Whole (Stylesheet.written (optionalLines piece lines)) := by
  unfold optionalLines
  cases piece with
  | none => exact .nil
  | some t =>
    dsimp only
    split
    · exact .nil
    · exact each t rfl

/-- What a document has in its head of its own is whole when the stylesheet is. -/
theorem whole_headTemplate {p : Pieces} (styleEnds : RawContent "style" p.stylesheet)
    (fit : FitSheet p.stylesheet) : Whole (headTemplate p) := by
  have newline : Whole ['\n'] := .plain (by decide)
  obtain ⟨charset, viewport, description⟩ := whole_metas p.description
  exact (((((((((newline.append charset).append newline).append viewport).append newline).append
    (whole_title p.title)).append newline).append description).append newline).append
      (whole_style styleEnds fit)).append newline

/-- A document is whole when its fragments can stand in it. -/
theorem whole_document {p : Pieces} (styleEnds : RawContent "style" p.stylesheet)
    (fit : FitSheet p.stylesheet) (markup : Woven p.markup) (head : ∀ h ∈ p.headHtml, Woven h)
    (scriptEnds : ∀ s ∈ p.script, RawContent "script" s) : Whole (document p) := by
  have newline : Whole ['\n'] := .plain (by decide)
  have doctype : Whole "<!DOCTYPE html>" := (woven_doctype (t := "html") (by decide)).whole
  have extra : Whole (Stylesheet.written (optionalLines p.headHtml fun t => [t])) := by
    refine whole_optional fun t some => ?_
    simpa [Stylesheet.written] using (head t some).trim.whole.append newline
  have script :
      Whole (Stylesheet.written (optionalLines p.script fun t => ["<script>", t, "</script>"])) := by
    refine whole_optional fun t some => ?_
    have element := (whole_script (scriptEnds t some)).append newline
    simp only [Stylesheet.written, List.flatMap_cons, List.flatMap_nil, List.append_assoc,
      List.append_nil]
    simpa only [List.append_assoc] using element
  have inHead : Whole (headContent p) := (whole_headTemplate styleEnds fit).append extra
  have inBody : Whole (bodyContent p) :=
    ((newline.append markup.trim.whole).append newline).append script
  have inside := (((newline.append (whole_frames inHead).1).append newline).append
    (whole_frames inBody).2.1).append newline
  rw [document_eq]
  exact ((doctype.append newline).append (whole_frames inside).2.2).append newline

/-! ## Pages -/

open Formatting (format tidy format_markup_iff format_stylesheet_iff tidy_of_ok tidy_of_error)

/-- The site of a tree whose markup and stylesheet have layouts. -/
theorem generate_eq {r : Request} {rendered html css : Text} (made : markup r.tree = .ok rendered)
    (laid : format .markup r.style rendered = .ok html)
    (styled : format .stylesheet r.style (stylesheet r.tree r.options) = .ok css) :
    generate r = .ok ⟨html, css, tidy .markup r.style (pageDocument r html css)⟩ := by
  rw [generate, made]
  simp only [bind, Except.bind, pure, Except.pure]
  rw [tidy_of_ok laid, tidy_of_ok styled]

/-- The page of a site is the layout of its document when markup and stylesheet have layouts, what is
put into the head is a layout as it stands, no raw content has an end tag of its own, and the nodes
of the markup and of the head are regular. -/
theorem generate_formatted {r : Request} {rendered html css : Text}
    (made : markup r.tree = .ok rendered) (laid : format .markup r.style rendered = .ok html)
    (styled : format .stylesheet r.style (stylesheet r.tree r.options) = .ok css)
    (styleEnds : RawContent "style" css)
    (scriptEnds : RawContent "script" (script r.tree (r.options.pageCode.bind (·.javascript))))
    (canonical : ∀ h ∈ r.options.pageCode.bind (·.headHtml), format .markup r.style h = .ok h.toList)
    (regular : ∀ nodes, read rendered = .ok nodes → RegularAll r.style nodes)
    (regularHead : ∀ h ∈ r.options.pageCode.bind (·.headHtml), ∀ nodes, read h = .ok nodes →
      RegularAll r.style nodes) :
    ∃ page, format .markup r.style (pageDocument r html css) = .ok page ∧
      generate r = .ok ⟨html, css, page⟩ := by
  obtain ⟨unit, laidOut⟩ := format_markup_iff.mp laid
  have accepted := accepted_of_format (format_stylesheet_iff.mp styled).2
  have head : ∀ h ∈ (r.options.pageCode.bind (·.headHtml)).map String.toList, Woven h := by
    intro h member
    obtain ⟨s, some, rfl⟩ := Option.map_eq_some_iff.mp member
    exact woven_format (format_markup_iff.mp (canonical s some)).2 (regularHead s some)
  have whole : Whole (pageDocument r html css) := by
    refine whole_document styleEnds (.inr accepted) (woven_format laidOut regular) head fun s some => ?_
    obtain rfl := Option.some.inj some
    exact scriptEnds
  obtain ⟨page, formatted⟩ := whole.exists_format r.style
  have page_ := format_markup_iff.mpr ⟨unit, formatted⟩
  refine ⟨page, page_, ?_⟩
  rw [generate_eq made laid styled, tidy_of_ok page_]

/-- A tree of one text. -/
def noteTree (content : String) : List Component :=
  [{ id := "a", type := "text", props := { content := .text content } }]

/-- The page of a text with something in its head. -/
def noteRequest (content headHtml : String) : Request where
  tree := noteTree content
  name := "p"
  options := { pageCode := some { headHtml := some headHtml } }

theorem stylesheet_note (content headHtml : String) :
    stylesheet (noteTree content) (noteRequest content headHtml).options = resetSection := by
  have animations : Animation.compile (noteTree content) = [] := by
    simp only [Animation.compile, Animation.ofTree, Tree.walk_eq_preorderAll]
    rfl
  have rules : componentSection (noteTree content) = [] := by
    rw [componentSection, componentRules, Tree.walk_eq_preorderAll]
    rfl
  have custom : customSection (noteTree content) = [] := by
    rw [customSection, Tree.walk_eq_preorderAll]
    rfl
  have some : resetSection.isEmpty = false := by decide +kernel
  rw [stylesheet, styleSections, animations, rules, custom]
  simp [noteRequest, some, Animation.separate, Text.joinWith]

theorem script_note (content : String) : script (noteTree content) none = [] := by
  rw [script, runtimeHelpers, componentScripts, Tree.hasTrigger, Tree.hasTrigger,
    Tree.walk_eq_preorderAll]
  rfl

/-- The first section of a stylesheet has a layout, which holds no tag. -/
theorem exists_resetSheet : ∃ css, format .stylesheet .standard resetSection = .ok css ∧ '<' ∉ css := by
  have sheet : ∃ css ∈ (Stylesheet.format .standard resetSection).toOption, '<' ∉ css := by
    simp only [resetSection, resetLines, List.map_cons, List.map_nil]
    -- Literals become lists of characters first, which the kernel is slow to make of them.
    repeat rw [String.toList_ofList]
    decide +kernel
  obtain ⟨css, some, quiet⟩ := sheet
  exact ⟨css, format_stylesheet_iff.mpr ⟨rfl, eq_ok_of_toOption some⟩, quiet⟩

theorem regularAll_of_read {style : Style} {t : Text}
    (known : ∀ ns ∈ (read t).toOption, RegularAll style ns) :
    ∀ ns, read t = .ok ns → RegularAll style ns :=
  fun ns nodes => known ns (by simp [nodes, Except.toOption])

/-- The markup of a text with line breaks, with a slash and without, and its layout. -/
def breakMarkup : Text × Text :=
  ("<p class=\"c-a\" id=\"a\">a<br>b<br/></p>", "<p class=\"c-a\" id=\"a\">a<br />b<br /></p>\n")

/-- A page with a `meta` element in its head is laid out. -/
theorem generate_formatted_meta : ∃ css page,
    format .markup .standard
      (pageDocument (noteRequest "a<br>b<br/>" "<meta name=\"a\" />\n") breakMarkup.2 css) = .ok page ∧
    generate (noteRequest "a<br>b<br/>" "<meta name=\"a\" />\n") = .ok ⟨breakMarkup.2, css, page⟩ := by
  obtain ⟨css, styled, quiet⟩ := exists_resetSheet
  rw [← stylesheet_note "a<br>b<br/>" "<meta name=\"a\" />\n"] at styled
  have made : markup (noteTree "a<br>b<br/>") = .ok breakMarkup.1 := by decide +kernel
  have laid : format .markup .standard breakMarkup.1 = .ok breakMarkup.2 := by decide +kernel
  have canonical : ∀ h ∈ some "<meta name=\"a\" />\n", format .markup .standard h = .ok h.toList := by
    decide +kernel
  have head : ∀ h ∈ some "<meta name=\"a\" />\n", ∀ ns ∈ (read h).toOption, RegularAll .standard ns := by
    decide +kernel
  have scriptEnds : RawContent "script" (script (noteTree "a<br>b<br/>") none) := by
    rw [script_note]
    rfl
  exact ⟨css, generate_formatted (r := noteRequest _ _) made laid styled (rawContent_of_not_mem quiet)
    scriptEnds canonical (regularAll_of_read (by decide +kernel))
    fun h some => regularAll_of_read (head h some)⟩

/-! ## An attribute that is read as a value -/

/-- A start tag leaves what has been read calm. -/
theorem reads_plainStart {name : Text} (named : ElementName name)
    (notRaw : rawElements.elem name = false) (notClosing : selfClosingElements.elem name = false)
    {as : List TagAttribute} (sound : ∀ a ∈ as, a.Sound) (separate : TagAttribute.Separate as)
    {p : Progress} (calm : p.Calm) : ∃ q, Reads (tagText name [' '] [] as false) p q ∧ q.Calm :=
  ⟨_, reads_startTag named.toTagName spacing_space.1 sound separate (named.lower.symm ▸ notRaw)
    (named.lower.symm ▸ notClosing) p, calm.openElement _ _⟩

/-- A document up to what is put into its head. -/
def leadText (p : Pieces) : Text :=
  "<!DOCTYPE html>" ++ ['\n'] ++ "<html lang=\"en\">" ++ ['\n'] ++ "<head>" ++ headTemplate p

/-- A document behind what is put into its head. -/
def tailText (p : Pieces) : Text :=
  "</head>" ++ ['\n'] ++ ("<body>" ++ bodyContent p ++ "</body>") ++ ['\n'] ++ "</html>" ++ ['\n']

theorem document_eq_lead (p : Pieces) : document p =
    leadText p ++ (Stylesheet.written (optionalLines p.headHtml fun t => [t]) ++ tailText p) := by
  rw [document_eq]
  unfold headContent leadText tailText
  simp only [List.append_assoc]

theorem exists_reads_lead {p : Pieces} (styleEnds : RawContent "style" p.stylesheet)
    (fit : FitSheet p.stylesheet) : ∃ q, Reads (leadText p) .start q ∧ q.Calm := by
  have newline : Whole ['\n'] := .plain (by decide)
  have doctype : Whole "<!DOCTYPE html>" := (woven_doctype (t := "html") (by decide)).whole
  have lang := sound_quoted "lang" "en" (by decide) (by decide) (by decide)
  obtain ⟨root, head, -⟩ := elementName_frames
  obtain ⟨q₁, first, on₁⟩ := doctype.append newline .start (.of_nil rfl)
  obtain ⟨q₂, opens, calm₂⟩ := reads_plainStart root (by decide) (by decide)
    (List.forall_mem_singleton.mpr lang) trivial on₁.calm
  obtain ⟨q₃, break_, on₃⟩ := newline q₂ calm₂
  obtain ⟨q₄, within, calm₄⟩ := reads_plainStart head (by decide) (by decide) (List.forall_mem_nil _)
    trivial on₃.calm
  obtain ⟨q, own, on⟩ := whole_headTemplate styleEnds fit q₄ calm₄
  have reads := ((((first.append opens).append break_).append within).append own)
  have html : "<html lang=\"en\">".toList =
      tagText "html" [' '] [] [⟨"lang", .some ('"', "en")⟩] false := by decide
  have open_ : "<head>".toList = tagText "head" [' '] [] [] false := by decide
  unfold leadText
  rw [html, open_]
  exact ⟨q, reads, on.calm⟩

/-- An end tag of another name than the innermost element has is at fault. -/
theorem readFrom_finish_eq_error {p : Progress} (calm : p.Calm) {name : Text}
    (notClosing : selfClosingElements.elem name = false) {frame : Frame} {outer : List Frame}
    (frames : p.frames = frame :: outer) (other : frame.name ≠ name) (rest : List Token) :
    readFrom p (.finish name :: rest) = .error (.unexpectedClosing name) := by
  have closes : p.step (.finish name) = .error (.unexpectedClosing name) := by
    rw [Progress.step, Progress.finish_eq (calm.not_mem notClosing), Progress.closeElement,
      Progress.flush_eq, frames]
    simp [other]
  rw [readFrom, closes]
  rfl

/-- The page of a text with a quote, whose head has an attribute that is only a name and behind it one
whose name starts with an equals sign. -/
def quoteRequest : Request := noteRequest "it's" "<a x ='>b</a>\n"

/-- The markup of a text with a quote. -/
def quoteMarkup : Text := "<p class=\"c-a\" id=\"a\">it's</p>"

/-- What stands behind the stylesheet on the page. -/
def quoteTail : Text :=
  "<a x ='>b</a>\n</head>\n<body>\n<p class=\"c-a\" id=\"a\">it's</p>\n</body>\n</html>\n"

/-- The attributes of the element in the head, where the quote in the text ends a value. -/
def quoteAttributes : Attributes :=
  [("x", ">b</a>\n</head>\n<body>\n<p class=\"c-a\" id=\"a\">it"), ("s<", []), ("p", [])]

theorem tokensFrom_quoteTail : tokensFrom false 0 quoteTail =
    .start "a" quoteAttributes false :: .text "\n" :: .finish "body" ::
      [.text "\n", .finish "html", .text "\n"] := by
  decide +kernel

/-- The pieces of the page. -/
def quotePieces (css : Text) : Pieces where
  title := "p"
  description := defaultDescription
  stylesheet := css
  markup := quoteMarkup ++ ['\n']
  script := some []
  headHtml := some "<a x ='>b</a>\n".toList

theorem pageDocument_quote (css : Text) :
    pageDocument quoteRequest (quoteMarkup ++ ['\n']) css = leadText (quotePieces css) ++ quoteTail := by
  have pieces : pageDocument quoteRequest (quoteMarkup ++ ['\n']) css = document (quotePieces css) := by
    have none : script quoteRequest.tree (quoteRequest.options.pageCode.bind (·.javascript)) = [] :=
      script_note "it's"
    rw [pageDocument, none]
    rfl
  have tail : Stylesheet.written (optionalLines (quotePieces css).headHtml fun t => [t]) ++
      tailText (quotePieces css) = quoteTail := by
    unfold tailText bodyContent quotePieces
    dsimp only
    decide +kernel
  rw [pieces, document_eq_lead, tail]

theorem read_quote {css : Text} (styleEnds : RawContent "style" css) (fit : FitSheet css) :
    read (pageDocument quoteRequest (quoteMarkup ++ ['\n']) css) = .error (.unexpectedClosing "body") := by
  obtain ⟨q, reads, calm⟩ := exists_reads_lead (p := quotePieces css) styleEnds fit
  rw [pageDocument_quote, Markup.read, tokens, reads, tokensFrom_quoteTail]
  have opens : q.step (.start "a" quoteAttributes false) = .ok (q.openElement "a" quoteAttributes) := rfl
  have frames : ((q.openElement "a" quoteAttributes).push "\n").frames =
      ⟨"a", quoteAttributes, q.pendingNodes ++ q.nodes⟩ :: q.frames := by
    rw [Progress.openElement_eq]
    rfl
  rw [readFrom_of_step opens, readFrom_text]
  have closing : selfClosingElements.elem "body".toList = false := by decide
  have other : "a".toList ≠ "body".toList := by decide
  have later : ((q.openElement "a" quoteAttributes).push "\n").Calm :=
    calm.openElement "a" quoteAttributes
  exact readFrom_finish_eq_error later closing frames other _

/-- A page whose head is its own layout is left as it is: the quote in its text is read as the end of
an attribute in the head. -/
theorem generate_quote_unformatted : ∃ css,
    markup quoteRequest.tree = .ok quoteMarkup ∧
    format .markup .standard quoteMarkup = .ok (quoteMarkup ++ ['\n']) ∧
    format .stylesheet .standard (stylesheet quoteRequest.tree quoteRequest.options) = .ok css ∧
    '<' ∉ css ∧
    script quoteRequest.tree (quoteRequest.options.pageCode.bind (·.javascript)) = [] ∧
    quoteRequest.options.pageCode.bind (·.headHtml) = some "<a x ='>b</a>\n" ∧
    format .markup .standard "<a x ='>b</a>\n" = .ok "<a x ='>b</a>\n".toList ∧
    format .markup .standard (pageDocument quoteRequest (quoteMarkup ++ ['\n']) css) =
      .error (.markup (.unexpectedClosing "body")) ∧
    generate quoteRequest = .ok ⟨quoteMarkup ++ ['\n'], css,
      pageDocument quoteRequest (quoteMarkup ++ ['\n']) css⟩ := by
  obtain ⟨css, styled, quiet⟩ := exists_resetSheet
  rw [← stylesheet_note "it's" "<a x ='>b</a>\n"] at styled
  have made : markup quoteRequest.tree = .ok quoteMarkup := by decide +kernel
  have laid : format .markup .standard quoteMarkup = .ok (quoteMarkup ++ ['\n']) := by decide +kernel
  have canonical : format .markup .standard "<a x ='>b</a>\n" = .ok "<a x ='>b</a>\n".toList := by
    decide +kernel
  have fit : FitSheet css := .inr (accepted_of_format (format_stylesheet_iff.mp styled).2)
  have unformatted : format .markup .standard
      (pageDocument quoteRequest (quoteMarkup ++ ['\n']) css) =
        .error (.markup (.unexpectedClosing "body")) := by
    have fault : Markup.format .standard (pageDocument quoteRequest (quoteMarkup ++ ['\n']) css) =
        .error (.unexpectedClosing "body") := by
      rw [Markup.format, read_quote (rawContent_of_not_mem quiet) fit]
      rfl
    rw [Formatting.format, fault]
    rfl
  have same : tidy .markup quoteRequest.style (pageDocument quoteRequest (quoteMarkup ++ ['\n']) css) =
      pageDocument quoteRequest (quoteMarkup ++ ['\n']) css := tidy_of_error unformatted
  refine ⟨css, made, laid, styled, quiet, script_note "it's", rfl, canonical, unformatted, ?_⟩
  rw [generate_eq made laid styled, same]

end StaticSite.Site
