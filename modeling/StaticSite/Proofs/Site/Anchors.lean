import StaticSite.Proofs.Script.Literal
import StaticSite.Proofs.Site.Triggers
import StaticSite.Proofs.Stylesheet.Identifier
import StaticSite.Site.Stylesheet
import StaticSite.Tree.Load

/-! # The anchors of a component

The id of a component is written into three languages: as an attribute of its element, as a literal
in its script and as the selector of its rules. Only markup escapes it. So the attribute holds the
id whatever it is, the script looks for it when it is made of ordinary characters, and the rules
select it when it is an identifier.
-/

namespace StaticSite.Site

open Markup Widget Script Stylesheet

/-- Every text can be the id of a component that is loaded. -/
theorem load_id (id : String) :
    Tree.load (.list [.table [("id", .text id), ("type", .text "text")]]) =
      .ok [{ id := id, type := "text" }] := rfl

/-! ## Markup -/

/-- The markup of a component of a known kind begins with its opening tag. -/
theorem exists_opens {c : Component} {w : Widget} (known : Widget.ofType? c.type = some w) {t : Text}
    (rendered : renderComponent c = .ok t) : ∃ tag attributes, Opens c tag attributes := by
  obtain ⟨id, type, displayName, props, styles, children⟩ := c
  have element := rendered
  rw [renderComponent] at element
  simp only [known] at element
  obtain ⟨_, ⟨tag, attributes, rest, same, opening, -⟩, -⟩ := render_begins element
  exact ⟨tag, attributes, ⟨rest, same ▸ rendered⟩, opening.read, opening.id⟩

/-! ## Script -/

/-- What stands in the block of a component before the literal that it looks for its element with. -/
def lookupStart (id : String) : Text :=
  "// Custom code for #" ++ id ++ "\n(function() \x7b\n  const element = document.getElementById("

theorem unlines_scriptHeader (id : String) {rest : List Text} (more : rest ≠ []) :
    ∃ behind, Text.unlines (scriptHeader id ++ rest) =
      lookupStart id ++ ('\'' :: id.toList ++ '\'' :: ')' :: behind) := by
  refine ⟨";\n  if (!element) return;\n\n" ++ Text.unlines rest, ?_⟩
  simp only [scriptHeader, List.cons_append, List.nil_append]
  rw [Text.unlines_cons _ (by simp), Text.unlines_cons _ (by simp), Text.unlines_cons _ (by simp),
    Text.unlines_cons _ (by simp), Text.unlines_cons _ more]
  unfold lookupStart
  -- The literals become lists of characters before they are put together.
  simp only [String.reduceToList]
  simp only [List.append_assoc, List.cons_append, List.nil_append]

/-- The block of a component looks for its element with its id in single quotes. -/
theorem componentScript_eq (id : String) {code : CustomCode} (scripted : code.hasScript = true) :
    ∃ behind, componentScript id code =
      lookupStart id ++ ('\'' :: id.toList ++ '\'' :: ')' :: behind) := by
  rw [componentScript, if_pos scripted]
  dsimp only
  rw [List.append_assoc]
  exact unlines_scriptHeader id (by simp)

/-! ## Stylesheet -/

/-- The rules of a component of a kind: its styles, also those of variants, what is fixed for its
kind, and its triggers. -/
def rulesOf (w : Widget) (c : Component) : List Text :=
  Rule.base c ++ (Rule.breakpoints.flatMap fun (variant, width) => Rule.media c variant width) ++
    (Rule.fixed w).map (Rule.Fixed.text c.id) ++ Animation.triggerRules c

/-- What may stand in front of the selector of a rule: nothing, or the start of a media query. -/
def mediaStarts : List Text :=
  [] :: Rule.breakpoints.map fun (_, width) => "@media (min-width: " ++ width ++ ") \x7b\n  "

/-- A rule whose selector is the one of a component, with more of it or a blank behind. -/
def Selects (id : String) (rule : Text) : Prop :=
  ∃ before ∈ mediaStarts, ∃ behind, rule = before ++ ('#' :: id.toList ++ behind) ∧ Follows behind

theorem selects_blockLines (id : String) {part : Text} (follows : Follows (part ++ " \x7b"))
    (body : List Text) :
    Selects id (Text.unlines (Rule.blockLines [] (Rule.selector id ++ part) body)) := by
  obtain ⟨c, listed, head⟩ := follows
  obtain ⟨rest, split⟩ := List.head?_eq_some_iff.mp head
  refine ⟨[], List.mem_cons_self,
    part ++ " \x7b" ++ '\n' :: Text.unlines (body ++ [[] ++ "\x7d".toList]), ?_, c, listed, ?_⟩
  · rw [Rule.blockLines, List.cons_append, Text.unlines_cons _ (by simp)]
    simp [Rule.selector]
  · rw [split]
    rfl

theorem selects_base {c : Component} {rule : Text} (listed : rule ∈ Rule.base c) :
    Selects c.id rule := by
  rw [Rule.base] at listed
  split at listed
  · cases listed
  · obtain rfl := List.mem_singleton.mp listed
    have follows : Follows (([] : Text) ++ " \x7b") := ⟨' ', by simp, rfl⟩
    have block := selects_blockLines c.id follows
      ((Rule.baseDeclarations c).map (Property.Declaration.line "  "))
    rwa [List.append_nil] at block

theorem selects_media {c : Component} {b : String × String} (known : b ∈ Rule.breakpoints)
    {rule : Text} (listed : rule ∈ Rule.media c b.1 b.2) : Selects c.id rule := by
  rw [Rule.media] at listed
  split at listed
  · cases listed
  · obtain rfl := List.mem_singleton.mp listed
    refine ⟨"@media (min-width: " ++ b.2 ++ ") \x7b\n  ", ?_,
      " \x7b" ++ '\n' :: Text.unlines ((Rule.variantDeclarations c b.1).map
        (Property.Declaration.line "    ") ++ ["  \x7d".toList] ++ ["\x7d".toList]), ?_,
      ' ', by simp, rfl⟩
    · exact List.mem_cons_of_mem _ (List.mem_map_of_mem known)
    · rw [Rule.blockLines, List.cons_append, Text.unlines_cons _ (by simp), Rule.declarationBlock,
        Rule.blockLines, List.cons_append, List.cons_append, Text.unlines_cons _ (by simp)]
      simp [Rule.selector]

/-- Every fixed rule goes on with a blank or with a pseudo-class. -/
theorem follows_fixed (w : Widget) : ∀ rule ∈ Rule.fixed w,
    ∃ c ∈ [' ', ':', '.'], rule.part.toList.head? = some c := by
  cases w <;> decide +kernel

theorem selects_fixed {w : Widget} {rule : Rule.Fixed} (listed : rule ∈ Rule.fixed w)
    (id : String) : Selects id (rule.text id) := by
  obtain ⟨c, known, head⟩ := follows_fixed w rule listed
  obtain ⟨rest, split⟩ := List.head?_eq_some_iff.mp head
  exact selects_blockLines id ⟨c, known, by rw [split]; rfl⟩ _

theorem selects_triggerRule {id : String} {a : StaticSite.Animation} {rule : Text}
    (bound : Animation.triggerRule? id a = some rule) : Selects id rule := by
  obtain ⟨_, found, rfl⟩ := Option.map_eq_some_iff.mp bound
  obtain ⟨state, known, same⟩ := Option.bind_eq_some_iff.mp found
  cases same
  have states : ∀ q ∈ [("onLoad", ""), ("continuous", ""), ("onHover", ":hover"),
      ("onScroll", ".in-view"), ("onClick", ".clicked")],
      ∃ c ∈ [' ', ':', '.'], (q.2.toList ++ " \x7b").head? = some c := by decide
  exact selects_blockLines id (states (a.trigger, state) (Animation.mem_of_lookup known)) _

/-- Every rule of a component starts with its selector. -/
theorem selects_rulesOf {w : Widget} {c : Component} {rule : Text} (listed : rule ∈ rulesOf w c) :
    Selects c.id rule := by
  rw [rulesOf] at listed
  simp only [List.mem_append] at listed
  rcases listed with ((base | media) | fixed) | trigger
  · exact selects_base base
  · obtain ⟨b, known, inside⟩ := List.mem_flatMap.mp media
    exact selects_media known inside
  · obtain ⟨rule, known, rfl⟩ := List.mem_map.mp fixed
    exact selects_fixed known c.id
  · obtain ⟨a, -, bound⟩ := List.mem_filterMap.mp trigger
    exact selects_triggerRule bound

/-! ## The three anchors -/

/-- What an identifier is made of, a script's literal reads as it is. -/
theorem isOrdinary_of_isIdentifier {t : Text} (identifier : IsIdentifier t) :
    ∀ c ∈ t, isOrdinary c = true := by
  intro c member
  have part := identifier.2 c member
  have others : ∀ d ∈ ['\'', '\\', '\n', '\r'], isNamePart d = false := by decide
  simp only [List.forall_mem_cons] at others
  simp only [isOrdinary, Bool.and_eq_true, bne_iff_ne]
  refine ⟨⟨⟨?_, ?_⟩, ?_⟩, ?_⟩
  all_goals
    rintro rfl
    simp [others] at part

/-- The anchors of a component of a known kind. Its tag holds its id as it is. The script that looks
for it does so with a literal that has the id for its value exactly when the id is made of ordinary
characters. The rules that start with its selector select its id exactly when the id is an
identifier, and then the script finds it as well. -/
theorem anchors_iff {c : Component} {w : Widget} (known : Widget.ofType? c.type = some w) :
    (∀ t, renderComponent c = .ok t → ∃ tag attributes, Opens c tag attributes) ∧
    (∀ code : CustomCode, code.hasScript = true → ∃ behind, componentScript c.id code =
        lookupStart c.id ++ ('\'' :: c.id.toList ++ '\'' :: ')' :: behind) ∧
      (literal? ('\'' :: c.id.toList ++ '\'' :: ')' :: behind) =
          some (units c.id.toList, ')' :: behind) ↔
        ∀ ch ∈ c.id.toList, isOrdinary ch = true)) ∧
    (∀ rule ∈ rulesOf w c, ∃ before ∈ mediaStarts, ∃ behind,
      rule = before ++ ('#' :: c.id.toList ++ behind) ∧
      (idSelector? ('#' :: c.id.toList ++ behind) = some (c.id.toList, preprocess behind) ↔
        IsIdentifier c.id.toList)) ∧
    (IsIdentifier c.id.toList → ∀ ch ∈ c.id.toList, isOrdinary ch = true) := by
  refine ⟨fun t rendered => exists_opens known rendered, fun code scripted => ?_,
    fun rule listed => ?_, isOrdinary_of_isIdentifier⟩
  · obtain ⟨behind, same⟩ := componentScript_eq c.id scripted
    exact ⟨behind, same, literal?_eq_iff c.id.toList (')' :: behind)⟩
  · obtain ⟨before, start, behind, same, follows⟩ := selects_rulesOf listed
    exact ⟨before, start, behind, same, idSelector?_eq_iff c.id.toList follows⟩

/-- A text with a style and with code of its own. -/
def scriptedText (id : String) : Component :=
  { id := id, type := "text", props := { customCode := some { javascript := some "run();" } },
    styles := { base := [("color", .text "red")] } }

/-- The text as data. -/
def scriptedInput (id : String) : Value :=
  .list [.table [("id", .text id), ("type", .text "text"),
    ("props", .table [("customCode", .table [("javascript", .text "run();")])]),
    ("styles", .table [("base", .table [("color", .text "red")])])]]

/-- The rule of the text. -/
def redRule (id : String) : Text := "#" ++ id ++ " \x7b\n  color: red;\n\x7d"

/-- An id that is an identifier has all its anchors. -/
theorem anchors_iff_identifier :
    Tree.load (scriptedInput "card-1") = .ok [scriptedText "card-1"] ∧
    (∃ behind, literal? ('\'' :: "card-1".toList ++ '\'' :: ')' :: behind) =
      some (units "card-1", ')' :: behind)) ∧
    ∃ before behind, redRule "card-1" = before ++ ('#' :: "card-1".toList ++ behind) ∧
      idSelector? ('#' :: "card-1".toList ++ behind) = some ("card-1".toList, preprocess behind) := by
  have identifier : IsIdentifier "card-1" := by decide
  obtain ⟨-, script, rules, ordinary⟩ :=
    anchors_iff (c := scriptedText "card-1") (Widget.ofType?_type .text)
  obtain ⟨behind, -, literal⟩ := script { javascript := some "run();" } (by decide)
  obtain ⟨before, -, more, same, selector⟩ := rules (redRule "card-1") List.mem_cons_self
  exact ⟨rfl, ⟨behind, literal.mpr (ordinary identifier)⟩, before, more, same,
    selector.mpr identifier⟩

/-- An id that begins with a digit and holds a quote has neither: its script ends the literal within
the id, and no selector begins its rule. -/
theorem anchors_quoted : Tree.load (scriptedInput "1'a") = .ok [scriptedText "1'a"] ∧
    (∃ behind, componentScript "1'a" { javascript := some "run();" } =
        lookupStart "1'a" ++ ('\'' :: "1'a".toList ++ '\'' :: behind) ∧
      literal? ('\'' :: "1'a".toList ++ '\'' :: behind) ≠ some (units "1'a", behind)) ∧
    redRule "1'a" ∈ rulesOf .text (scriptedText "1'a") ∧ idSelector? (redRule "1'a") = none := by
  have scripted : ({ javascript := some "run();" } : CustomCode).hasScript = true := by decide
  obtain ⟨behind, same⟩ := componentScript_eq "1'a" scripted
  refine ⟨rfl, ⟨')' :: behind, same, ?_⟩, List.mem_cons_self, by decide +kernel⟩
  rw [ne_eq, literal?_eq_iff]
  decide

end StaticSite.Site
