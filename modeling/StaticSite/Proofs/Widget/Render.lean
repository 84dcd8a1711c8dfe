import StaticSite.Proofs.Result
import StaticSite.Proofs.Text.Pieces
import StaticSite.Proofs.Widget.Element
import StaticSite.Widget.Render

/-! # Widgets as fragments

The markup of every kind of widget is a fragment with one element at its top, the one of the
component, as long as the texts that it inserts as they are mark up nothing.
-/

namespace StaticSite.Widget

open Markup

/-- A text that marks up nothing. -/
def PlainText (t : Text) : Prop := ∀ c ∈ t, isPlain c = true

/-- The members of optional data, none where it has no members. -/
def givenMembers (v : Value) : List Value := ((membersOf v).toOption).getD []

/-- The members that are tables. -/
def givenTables (v : Value) : List Fields := (givenMembers v).filterMap Value.fields?

/-- The choices that a component gives. -/
def givenChoices (c : Component) : List Choice :=
  (givenMembers ((c.props.get? "options").getD .null)).map Choice.ofValue

/-- The texts that the markup of a component holds as they are. -/
def rawTexts (w : Widget) (c : Component) : List Text :=
  match w with
  | .heading => [textContent c "Heading"]
  | .text => [textContent c "Text content"]
  | .button => [textContent c "Button"]
  | .link => [textContent c "Link"]
  | .hero => [
      part c "heading" "Welcome to Your Site", part c "subheading" "Build something amazing",
      part c "buttonText" "Get Started"]
  | .features =>
      (givenTables ((c.props.part? "features").getD defaultFeatures)).flatMap fun fields =>
        [memberField "icon" fields, memberField "title" fields, memberField "description" fields]
  | .callToAction => [
      part c "heading" "Ready to get started?",
      part c "description" "Join thousands of satisfied customers today.",
      part c "buttonText" "Start Free Trial"]
  | .footer =>
      part c "copyright" "© Your Company. All rights reserved." ::
        (givenMembers ((c.props.part? "links").getD defaultFooterLinks)).map Value.plain
  | .navigation =>
      part c "logo" "Your Logo" ::
        (givenTables ((c.props.part? "links").getD defaultLinks)).map (memberField "text")
  | .select | .radio => (givenChoices c).map Choice.label
  | .checkbox => [plainOr "Checkbox" (c.props.get? "label")]
  | .label => [plainOr "Label" (c.props.get? "text")]
  | .submitButton => [plainOr "Submit" (c.props.get? "text")]
  | _ => []

/-- What is written from the members of data is written from the given ones. -/
theorem written_of_members {v : Value} {write : List Value → Text} {t : Text}
    (rendered : (do let members ← membersOf v; pure (write members)) = Except.ok t) :
    write (givenMembers v) = t := by
  obtain ⟨members, given, rendered⟩ := exists_of_bind_eq_ok rendered
  rw [givenMembers, given]
  exact Except.ok.inj rendered

/-! ## Parts -/

/-- The markup of lines is a fragment. -/
theorem fragment_unlines {ls : List Text} (fragments : ∀ l ∈ ls, Fragment l []) :
    Fragment (Text.unlines ls) [] := by
  have newline : Fragment ['\n'] [] := .plain (by decide)
  exact newline.joinWith_plain fragments

/-- A start tag of an element that is no component, as widgets write it. -/
structure Opens (start tag : String) (as : List Attribute) : Prop where
  named : ∀ a ∈ as, a.1 ∈ "class" :: attributeNames
  content : tag ∈ contentTags
  text : start.toList = openTag tag as

theorem opens_bare {start tag : String} (content : tag ∈ contentTags)
    (text : start.toList = openTag tag []) : Opens start tag [] :=
  ⟨by simp, content, text⟩

theorem opens_class (name : String) {start tag : String} (content : tag ∈ contentTags)
    (text : start.toList = openTag tag [attr "class" name]) :
    Opens start tag [attr "class" name] :=
  ⟨by simp [attr], content, text⟩

theorem fragment_wrap {start tag : String} {as : List Attribute} (opens : Opens start tag as)
    {inner : Text} {os : List Outline} (fragment : Fragment inner os) :
    Fragment (wrap start inner tag) os := by
  rw [wrap, opens.text]
  exact fragment_plain opens.named opens.content fragment

/-- An element with its content on lines of their own. -/
theorem fragment_lines (tag : String) {start : String} (ls : List Text) {whole : List Text}
    {os : List Outline} (fragment : Fragment (Text.unlines ls) os) (some : ls ≠ [])
    (split : whole = start.toList :: (ls ++ [endTag tag])) {as : List Attribute}
    (opens : Opens start tag as) : Fragment (Text.unlines whole) os := by
  have newline : Fragment ['\n'] [] := .plain (by decide)
  have inside := fragment_plain opens.named opens.content
    ((newline.append fragment).append newline)
  have last : Text.unlines [endTag tag] = endTag tag := rfl
  rw [split, Text.unlines_cons _ (by simp), Text.unlines_append some (by simp), last, opens.text]
  simpa using inside

/-- An element with three lines in it. -/
theorem fragment_three (tag : String) {start : String} {as : List Attribute}
    {first second third : Text} {whole : List Text}
    (split : whole = [start.toList, first, second, third, endTag tag])
    (opens : Opens start tag as) (one : Fragment first []) (two : Fragment second [])
    (three : Fragment third []) : Fragment (Text.unlines whole) [] := by
  have lines : Fragment (Text.unlines [first, second, third]) [] :=
    fragment_unlines (List.forall_mem_cons.mpr ⟨one, List.forall_mem_cons.mpr ⟨two,
      List.forall_mem_singleton.mpr three⟩⟩)
  exact fragment_lines tag _ lines (by simp) split opens

section Components

variable (c : Component) {tag : String} {as : List Attribute}
variable (named : ∀ a ∈ as, a.1 ∈ attributeNames) (content : tag ∈ contentTags)
include named content

theorem fragment_element {inner : Text} {os : List Outline} (fragment : Fragment inner os) :
    Fragment (element c tag as inner) [.element c.id.toList os] :=
  fragment_own c named [] content fragment

theorem fragment_block (classes : List String) {body : Text} {os : List Outline}
    (fragment : Fragment body os) :
    Fragment (block c tag classes as body) [.element c.id.toList os] := by
  have newline : Fragment ['\n'] [] := .plain (by decide)
  have inside := fragment_own c named classes content ((newline.append fragment).append newline)
  simpa [block] using inside

end Components

/-! ## Blocks -/

theorem fragment_heroText {c : Component} (plain : ∀ t ∈ rawTexts .hero c, PlainText t) :
    Fragment (heroText c) [] := by
  simp only [rawTexts, List.forall_mem_cons] at plain
  obtain ⟨heading, subheading, action, -⟩ := plain
  refine fragment_three "div" rfl (opens_class "hero-content" (by decide) rfl) ?_ ?_ ?_
  · exact fragment_wrap (opens_bare (by decide) rfl) (.plain heading)
  · exact fragment_wrap (opens_bare (by decide) rfl) (.plain subheading)
  · exact fragment_wrap (opens_class "hero-btn" (by decide) rfl) (.plain action)

theorem fragment_callToActionText {c : Component}
    (plain : ∀ t ∈ rawTexts .callToAction c, PlainText t) :
    Fragment (callToActionText c) [.element c.id.toList []] := by
  simp only [rawTexts, List.forall_mem_cons] at plain
  obtain ⟨heading, description, action, -⟩ := plain
  refine fragment_block c (by simp) (by decide) ["cta"] ?_
  refine fragment_three "div" rfl (opens_class "cta-content" (by decide) rfl) ?_ ?_ ?_
  · exact fragment_wrap (opens_bare (by decide) rfl) (.plain heading)
  · exact fragment_wrap (opens_bare (by decide) rfl) (.plain description)
  · exact fragment_wrap (opens_class "cta-btn" (by decide) rfl) (.plain action)

theorem fragment_featureText {fields : Fields} (icon : PlainText (memberField "icon" fields))
    (title : PlainText (memberField "title" fields))
    (description : PlainText (memberField "description" fields)) :
    Fragment (featureText fields) [] := by
  refine fragment_three "div" rfl (opens_class "feature-item" (by decide) rfl) ?_ ?_ ?_
  · exact fragment_wrap (opens_class "feature-icon" (by decide) rfl) (.plain icon)
  · exact fragment_wrap (opens_bare (by decide) rfl) (.plain title)
  · exact fragment_wrap (opens_bare (by decide) rfl) (.plain description)

theorem fragment_featuresText {c : Component} {t : Text} (rendered : featuresText c = .ok t)
    (plain : ∀ t ∈ rawTexts .features c, PlainText t) :
    Fragment t [.element c.id.toList []] := by
  obtain rfl := written_of_members rendered
  have items : Fragment (Text.unlines
      ((givenTables ((c.props.part? "features").getD defaultFeatures)).map featureText)) [] := by
    refine fragment_unlines (List.forall_mem_map.mpr fun fields member => ?_)
    have texts := List.forall_mem_flatMap.mp plain fields member
    simp only [List.forall_mem_cons] at texts
    exact fragment_featureText texts.1 texts.2.1 texts.2.2.1
  refine fragment_block c (by simp) (by decide) ["features"] ?_
  exact fragment_lines "div" [_] items (by simp) rfl (opens_class "features-grid" (by decide) rfl)

theorem navigationLinkText_eq (fields : Fields) : navigationLinkText fields =
    openTag "a" [attr "href" (plainOr "#" (Fields.get? fields "href")), attr "class" "nav-link"] ++
      memberField "text" fields ++ endTag "a" := by
  have named : attributeText (attr "class" "nav-link") = "class=\"nav-link\"".toList := rfl
  have attributes (target : Text) : attributesText [attr "href" target, attr "class" "nav-link"] =
      "href=\"" ++ Text.escapeAttribute target ++ "\" class=\"nav-link\"" := by
    rw [attributesText, List.map_cons, List.map_cons, named]
    simp [attributeText, attr, Text.joinWith]
  have start : "<a href=\"".toList = "<".toList ++ "a".toList ++ " ".toList ++ "href=\"".toList := rfl
  have behind : "\" class=\"nav-link\">".toList = "\" class=\"nav-link\"".toList ++ ">".toList := rfl
  have ending : "</a>".toList = endTag "a" := rfl
  unfold navigationLinkText
  rw [openTag_eq "a" (by simp), attributes, start, behind, ending]
  simp only [List.append_assoc]

theorem fragment_navigationLinkText {fields : Fields}
    (label : PlainText (memberField "text" fields)) :
    Fragment (navigationLinkText fields) [] := by
  rw [navigationLinkText_eq]
  exact fragment_plain (by simp [attr, attributeNames]) (by decide) (.plain label)

theorem fragment_navigationText {c : Component} {t : Text} (rendered : navigationText c = .ok t)
    (plain : ∀ t ∈ rawTexts .navigation c, PlainText t) :
    Fragment t [.element c.id.toList []] := by
  obtain rfl := written_of_members rendered
  obtain ⟨logo, labels⟩ := List.forall_mem_cons.mp plain
  have items : Fragment (Text.unlines
      ((givenTables ((c.props.part? "links").getD defaultLinks)).map navigationLinkText)) [] :=
    fragment_unlines (List.forall_mem_map.mpr fun fields member =>
      fragment_navigationLinkText (List.forall_mem_map.mp labels fields member))
  have links : Fragment (Text.unlines ["<div class=\"nav-links\">", _, "</div>"]) [] :=
    fragment_lines "div" [_] items (by simp) rfl (opens_class "nav-links" (by decide) rfl)
  have head : Fragment (wrap "<div class=\"nav-logo\">" (part c "logo" "Your Logo") "div") [] :=
    fragment_wrap (opens_class "nav-logo" (by decide) rfl) (.plain logo)
  have parts := fragment_unlines (List.forall_mem_cons.mpr ⟨head, List.forall_mem_singleton.mpr links⟩)
  refine fragment_block c (by simp) (by decide) [] ?_
  exact fragment_lines "div" [_, "<div class=\"nav-links\">", _, "</div>"] parts (by simp) rfl
    (opens_class "nav-container" (by decide) rfl)

theorem fragment_footerLinkText {label : Value} (plain : PlainText label.plain) :
    Fragment (footerLinkText label) [] := by
  have opens : Opens "<a href=\"#\" class=\"footer-link\">" "a"
      [attr "href" "#", attr "class" "footer-link"] :=
    ⟨by simp [attr, attributeNames], by decide, rfl⟩
  exact fragment_wrap opens (.plain plain)

theorem fragment_footerText {c : Component} {t : Text} (rendered : footerText c = .ok t)
    (plain : ∀ t ∈ rawTexts .footer c, PlainText t) : Fragment t [.element c.id.toList []] := by
  obtain rfl := written_of_members rendered
  obtain ⟨copyright, labels⟩ := List.forall_mem_cons.mp plain
  have dot : Fragment " · " [] := .plain (by decide)
  have links := dot.joinWith_plain (List.forall_mem_map.mpr fun label member =>
    fragment_footerLinkText (List.forall_mem_map.mp labels label member))
  refine fragment_block c (by simp) (by decide) [] ?_
  refine fragment_unlines (List.forall_mem_cons.mpr ⟨?_, List.forall_mem_singleton.mpr ?_⟩)
  · exact fragment_wrap (opens_class "footer-links" (by decide) rfl) links
  · exact fragment_wrap (opens_class "footer-copyright" (by decide) rfl) (.plain copyright)

/-! ## Forms -/

theorem propertyAttr_fst (c : Component) (name default : String) :
    (propertyAttr c name default).1 = name := by
  unfold propertyAttr rawAttr
  split <;> rfl

theorem names_flags (c : Component) {names : List String} (known : ∀ n ∈ names, n ∈ attributeNames) :
    ∀ a ∈ flags c names, a.1 ∈ attributeNames := by
  intro a member
  obtain ⟨name, kept, rfl⟩ := List.mem_map.mp member
  exact known name (List.mem_filter.mp kept).1

theorem fragment_inputText {as : List Attribute} (some : as ≠ [])
    (named : ∀ a ∈ as, a.1 ∈ attributeNames) : Fragment (inputText as) [] := by
  have start : "<input ".toList = "<".toList ++ "input".toList ++ " ".toList := rfl
  unfold inputText
  rw [start, ← slashTag_eq "input" some]
  exact fragment_plain_slash (fun a member => List.mem_cons_of_mem _ (named a member)) (by decide)

theorem fragment_textareaText (c : Component) :
    Fragment (textareaText c) [.element c.id.toList []] := by
  refine fragment_element c (List.forall_mem_append.mpr ⟨?_, ?_⟩) (by decide) (.escaped _)
  · simp [propertyAttr_fst, attr, attributeNames]
  · exact names_flags c (by decide)

theorem written_of_choices {c : Component} {write : List Choice → Text} {t : Text}
    (rendered : (do let cs ← choices c; pure (write cs)) = Except.ok t) :
    write (givenChoices c) = t := by
  have members : (do
      let members ← membersOf ((c.props.get? "options").getD .null)
      pure (write (members.map Choice.ofValue))) = Except.ok t := by
    rw [← rendered]
    unfold choices
    cases membersOf ((c.props.get? "options").getD .null) <;> rfl
  exact written_of_members members

theorem fragment_option {o : Choice} (label : PlainText o.label) : Fragment
    ("<option " ++ attributesText [attr "value" o.value] ++ ">" ++ o.label ++ "</option>") [] := by
  have start : "<option ".toList = "<".toList ++ "option".toList ++ " ".toList := rfl
  have ending : "</option>".toList = endTag "option" := rfl
  rw [start, ending, ← openTag_eq "option" (by simp)]
  exact fragment_plain (by simp [attr, attributeNames]) (by decide) (.plain label)

theorem fragment_selectText {c : Component} {t : Text} (rendered : selectText c = .ok t)
    (plain : ∀ o ∈ givenChoices c, PlainText o.label) : Fragment t [.element c.id.toList []] := by
  obtain rfl := written_of_choices rendered
  have options := fragment_unlines (List.forall_mem_map.mpr fun o member =>
    fragment_option (plain o member))
  refine fragment_block c (List.forall_mem_cons.mpr ⟨?_, ?_⟩) (by decide) [] options
  · simp [propertyAttr_fst, attributeNames]
  · exact names_flags c (by decide)

theorem fragment_checkboxText {c : Component}
    (label : PlainText (plainOr "Checkbox" (c.props.get? "label"))) :
    Fragment (checkboxText c) [.element c.id.toList []] := by
  refine fragment_block c (by simp) (by decide) [] ?_
  refine fragment_unlines (List.forall_mem_cons.mpr ⟨?_, List.forall_mem_singleton.mpr ?_⟩)
  · exact fragment_inputText (by simp) (List.forall_mem_append.mpr
      ⟨by simp [propertyAttr_fst, attr, attributeNames], names_flags c (by decide)⟩)
  · exact fragment_wrap (opens_bare (by decide) rfl) (.plain label)

theorem fragment_radioText {c : Component} {required : List Attribute}
    (known : ∀ a ∈ required, a.1 ∈ attributeNames) {o : Choice} (label : PlainText o.label) :
    Fragment (radioText c required o) [] := by
  have button : Fragment (inputText ([attr "type" "radio", propertyAttr c "name" "radio-group",
      attr "value" o.value] ++ required)) [] :=
    fragment_inputText (by simp) (List.forall_mem_append.mpr
      ⟨by simp [propertyAttr_fst, attr, attributeNames], known⟩)
  have text : Fragment (wrap "<span>" o.label "span") [] :=
    fragment_wrap (opens_bare (by decide) rfl) (.plain label)
  have parts := fragment_unlines (List.forall_mem_cons.mpr ⟨button, List.forall_mem_singleton.mpr text⟩)
  exact fragment_lines "label" [_, _] parts (by simp) rfl (opens_class "radio-option" (by decide) rfl)

theorem fragment_radioTexts {c : Component} {os : List Choice}
    (plain : ∀ o ∈ os, PlainText o.label) : ∀ t ∈ radioTexts c os, Fragment t [] := by
  cases os with
  | nil => simp [radioTexts]
  | cons first rest =>
    obtain ⟨one, others⟩ := List.forall_mem_cons.mp plain
    refine List.forall_mem_cons.mpr ⟨fragment_radioText (names_flags c (by decide)) one, ?_⟩
    exact List.forall_mem_map.mpr fun o member => fragment_radioText (by simp) (others o member)

theorem fragment_radioGroupText {c : Component} {t : Text} (rendered : radioGroupText c = .ok t)
    (plain : ∀ o ∈ givenChoices c, PlainText o.label) : Fragment t [.element c.id.toList []] := by
  obtain rfl := written_of_choices rendered
  show Fragment (if (radioTexts c (givenChoices c)).isEmpty then _ else _) _
  split
  · exact fragment_element c (by simp) (by decide) (.plain (by simp))
  · exact fragment_block c (by simp) (by decide) [] (fragment_unlines (fragment_radioTexts plain))

theorem fragment_labelText {c : Component}
    (text : PlainText (plainOr "Label" (c.props.get? "text"))) :
    Fragment (labelText c) [.element c.id.toList []] := by
  have written : "<span class=\"required-marker\">*</span>".toList =
      wrap "<span class=\"required-marker\">" "*" "span" := rfl
  have marker : Fragment (wrap "<span class=\"required-marker\">" "*" "span") [] :=
    fragment_wrap (opens_class "required-marker" (by decide) rfl) (.plain (by decide))
  have target : ∀ a ∈ (if isOn c "for" then [attr "for" (plainOr "" (c.props.get? "for"))] else []),
      a.1 ∈ attributeNames := by
    split
    · simp [attr, attributeNames]
    · simp
  have ending : Fragment (if isOn c "required" then
      "<span class=\"required-marker\">*</span>".toList else []) [] := by
    split
    · exact written ▸ marker
    · exact .plain (by simp)
  exact fragment_element c target (by decide) (Fragment.append (.plain text) ending)

/-! ## All kinds -/

theorem headingTag_mem (c : Component) : headingTag c ∈ contentTags := by
  have levels : ∀ level ∈ headingLevels, level ∈ contentTags := by decide
  unfold headingTag
  dsimp only
  split
  · next found => exact levels _ (List.elem_iff.mp found)
  · decide

theorem fragment_wrapper {c : Component} {tag : String} {classes : List String}
    {as : List Attribute} {start : Text} {children : Except Fault Text} {t : Text}
    (rendered : wrapper c tag classes as start children = .ok t)
    (named : ∀ a ∈ as, a.1 ∈ attributeNames) (content : tag ∈ contentTags)
    (opening : Fragment start []) {os : List Outline}
    (below : ∀ inner, children = .ok inner → Fragment inner os) :
    Fragment t [.element c.id.toList os] := by
  obtain ⟨inner, held, rfl⟩ := exists_of_map rendered
  have newline : Fragment ['\n'] [] := .plain (by decide)
  have body := fragment_joinPresent newline (.cons opening (.cons (below inner held) .nil))
  exact fragment_block c named content classes (by simpa using body)

/-- The markup of a component is its own element, around the markup of its children if its kind
holds it. -/
theorem render_fragment {w : Widget} {c : Component} {children : Except Fault Text} {t : Text}
    (rendered : render w c children = .ok t) (plain : ∀ t ∈ rawTexts w c, PlainText t)
    {os : List Outline}
    (below : w.acceptsChildren = true → ∀ inner, children = .ok inner → Fragment inner os) :
    Fragment t [.element c.id.toList (if w.acceptsChildren then os else [])] := by
  have nothing : Fragment [] [] := .plain (by simp)
  cases w with
  | container | region | grid | flex | formGroup =>
    exact fragment_wrapper rendered (by simp) (by decide) nothing (below rfl)
  | hero =>
    exact fragment_wrapper rendered (by simp) (by decide) (fragment_heroText plain) (below rfl)
  | form =>
    refine fragment_wrapper rendered ?_ (by decide) nothing (below rfl)
    simp [propertyAttr_fst, attributeNames]
  | features => exact fragment_featuresText rendered plain
  | footer => exact fragment_footerText rendered plain
  | navigation => exact fragment_navigationText rendered plain
  | select => exact fragment_selectText rendered (List.forall_mem_map.mp plain)
  | radio => exact fragment_radioGroupText rendered (List.forall_mem_map.mp plain)
  | spacer =>
    obtain rfl := Except.ok.inj rendered
    have own : Fragment (startTag c "div" ["spacer"] [] ++ [] ++ endTag "div") _ :=
      fragment_own c (by simp) ["spacer"] (by decide) nothing
    rwa [List.append_nil] at own
  | heading =>
    obtain rfl := Except.ok.inj rendered
    exact fragment_element c (by simp) (headingTag_mem c) (.plain (plain _ List.mem_cons_self))
  | text =>
    obtain rfl := Except.ok.inj rendered
    exact fragment_element c (by simp) (by decide) (.plain (plain _ List.mem_cons_self))
  | button | link =>
    obtain rfl := Except.ok.inj rendered
    exact fragment_element c (by simp [attr, attributeNames]) (by decide)
      (.plain (plain _ List.mem_cons_self))
  | image =>
    obtain rfl := Except.ok.inj rendered
    exact fragment_void c (by simp [attr, attributeNames]) (by decide)
  | callToAction =>
    obtain rfl := Except.ok.inj rendered
    exact fragment_callToActionText plain
  | input =>
    obtain rfl := Except.ok.inj rendered
    refine fragment_void c (List.forall_mem_append.mpr ⟨?_, names_flags c (by decide)⟩) (by decide)
    simp [propertyAttr_fst, attributeNames]
  | textarea =>
    obtain rfl := Except.ok.inj rendered
    exact fragment_textareaText c
  | checkbox =>
    obtain rfl := Except.ok.inj rendered
    exact fragment_checkboxText (plain _ List.mem_cons_self)
  | label =>
    obtain rfl := Except.ok.inj rendered
    exact fragment_labelText (plain _ List.mem_cons_self)
  | submitButton =>
    obtain rfl := Except.ok.inj rendered
    refine fragment_element c (List.forall_mem_cons.mpr ⟨?_, names_flags c (by decide)⟩) (by decide)
      (.plain (plain _ List.mem_cons_self))
    simp [attr, attributeNames]

end StaticSite.Widget
