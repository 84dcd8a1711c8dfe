import StaticSite.Proofs.Site.Rule

/-! # Animations stand on their own

A block of keyframes holds one block for each stop, and the rule that binds it is one declaration.
-/

namespace StaticSite

open Stylesheet

namespace Animation

/-- A block with declarations in a row. -/
theorem standalone_stopText {time declarations : Text} (prelude : Prelude time)
    (inline : Inline declarations) : Standalone (stopText time declarations) := by
  have whole : Prelude ("  " ++ time ++ " ") :=
    (prelude.plain_append (by decide)).append_plain (by decide)
  obtain ⟨opens, left⟩ := whole.append_opening
  have body : Inline (" " ++ declarations ++ " ") :=
    (inline.plain_append (by decide)).append_plain (by decide)
  obtain ⟨closes, right⟩ := body.append_mark (.inr rfl)
  have block := Balanced.nil.block opens (by rw [left]; rfl) closes right
  have joined := @Balanced.joinWith [] (by simp) _ block
  have text : stopText time declarations =
      Text.joinWith [] ["  " ++ time ++ " " ++ ['\x7b'], " " ++ declarations ++ " " ++ ['\x7d']] := by
    simp [stopText, Text.joinWith]
  rw [text]
  exact joined

theorem presets_standalone : ∀ p ∈ presets, ∀ stop ∈ p.2, Standalone (stopText stop.1 stop.2) := by
  simp only [presets, List.forall_mem_cons]
  -- Literals become lists of characters first, which the kernel is slow to make of them.
  repeat rw [String.toList_ofList]
  decide +kernel

theorem mem_of_lookup {α β : Type} [BEq α] [LawfulBEq α] {l : List (α × β)} {k : α} {b : β}
    (found : l.lookup k = some b) : (k, b) ∈ l := by
  obtain ⟨before, behind, rfl, -⟩ := List.lookup_eq_some_iff.mp found
  simp

theorem standalone_presetStops (name : String) : ∀ t ∈ presetStops name, Standalone t := by
  obtain ⟨p, listed, stops⟩ : ∃ p ∈ presets,
      (presets.lookup name).getD ((presets.lookup defaultPreset).getD []) = p.2 := by
    cases found : presets.lookup name with
    | some stops => exact ⟨_, mem_of_lookup found, rfl⟩
    | none => exact ⟨_, List.mem_cons_self, rfl⟩
  intro t member
  rw [presetStops, stops] at member
  obtain ⟨stop, inside, rfl⟩ := List.mem_map.mp member
  exact presets_standalone p listed stop inside

theorem mem_of_triggerState? {trigger state : String} (known : triggerState? trigger = some state) :
    state ∈ ["", ":hover", ".in-view", ".clicked"] := by
  have all : ∀ p ∈ [("onLoad", ""), ("continuous", ""), ("onHover", ":hover"),
      ("onScroll", ".in-view"), ("onClick", ".clicked")],
      p.2 ∈ ["", ":hover", ".in-view", ".clicked"] := by decide
  exact all (trigger, state) (mem_of_lookup known)

theorem inert_triggerState {trigger state : String} (known : triggerState? trigger = some state) :
    Inert state.toList := by
  have all : ∀ s ∈ ["", ":hover", ".in-view", ".clicked"], Inert s.toList := by decide
  exact all state (mem_of_triggerState? known)

theorem prelude_timelineStop (k : Keyframe) :
    Prelude (Number.plainFloat (k.time * 100.0) ++ "%") := by
  have visible : Prelude "%" := by decide
  exact visible.plain_append (Number.plain_plainFloat _)

section Tidy

variable {a : StaticSite.Animation} (tidy : a.Tidy)
include tidy

theorem inline_timelineStop {k : Keyframe} (listed : k ∈ a.timeline) :
    Inline (Text.joinWith "; " (k.properties.map fun p =>
      (Property.Declaration.ofTimeline p.1 p.2).text)) := by
  refine .joinWith (by decide) (by simp) (by decide) fun t member => ?_
  obtain ⟨d, inside, rfl⟩ := List.mem_map.mp member
  obtain ⟨name, value⟩ := tidy.timeline k listed d inside
  exact Property.Declaration.inline_text (Property.plain_timelineName name) value.inline

theorem standalone_stops :
    ∀ t ∈ if a.timeline.isEmpty then presetStops a.name else a.timeline.map timelineStop,
      Standalone t := by
  intro t member
  split at member
  · exact standalone_presetStops a.name t member
  · obtain ⟨k, listed, rfl⟩ := List.mem_map.mp member
    exact standalone_stopText (prelude_timelineStop k) (inline_timelineStop tidy listed)

theorem plain_keyframesName : Plain (keyframesName a) := .append (by decide) tidy.id

theorem prelude_keyframes : Prelude ("@keyframes " ++ keyframesName a) :=
  .of_plain (by decide) ⟨'@', by decide, by decide⟩ (plain_keyframesName tidy).inert

theorem standalone_keyframes : Standalone (keyframes a) :=
  (Rule.balanced_blockLines .nil (prelude_keyframes tidy)
    (.of_standalone (standalone_stops tidy))).unlines

/-- How an animation runs, with its easing and its direction apart. -/
theorem exists_shorthand : ∃ first middle direction : Text, Plain first ∧ Plain middle ∧
    Inline direction ∧ (Within 0 (marks (lexemes direction)) ↔
      ∀ d ∈ a.playback.direction, Within 0 (marks (lexemes d.toList))) ∧
    shorthand a = keyframesName a ++ ' ' ::
      (first ++ (a.playback.easing ++ ' ' :: (middle ++ (direction ++ " both")))) := by
  have normal : Plain "normal" := by decide
  have within : Within 0 (marks (lexemes "normal")) := by
    rw [normal.lexemes_eq, normal.marks_eq]
    trivial
  have start : Plain (a.playback.duration.styleText ++ "ms ") :=
    (Quantity.plain_styleText _).append (by decide)
  have iterations : Plain (if a.playback.loop then "infinite" else "1" : String).toList := by
    split <;> decide
  have middle := ((a.playback.delay.plain_styleText.append (t := "ms ") (by decide)).append
    iterations).append (t := " ") (by decide)
  unfold shorthand
  cases given : a.playback.direction with
  | none =>
    refine ⟨_, _, "normal", start, middle, normal.inert.toInline, ⟨?_, fun _ => within⟩, by simp⟩
    rintro - d ⟨⟩
  | some d =>
    by_cases empty : d.isEmpty = true
    · refine ⟨_, _, "normal", start, middle, normal.inert.toInline, ⟨?_, fun _ => within⟩,
        by simp [empty]⟩
      rintro - _ ⟨⟩
      rw [show d = "" by simpa using empty]
      trivial
    · exact ⟨_, _, d.toList, start, middle, (tidy.direction d given).inline, by simp,
        by simp [empty]⟩

theorem inline_shorthand : Inline (shorthand a) := by
  obtain ⟨first, middle, direction, start, between, inline, -, text⟩ := exists_shorthand tidy
  have name := (plain_keyframesName tidy).append (t := [' ']) (by decide)
  have behind := Inline.plain_append (s := [' ']) (by decide)
    (.plain_append between (inline.append_plain (t := " both") (by decide)))
  have whole := Inline.plain_append name
    (.plain_append start (tidy.easing.inline.append behind (by simp)))
  rw [text]
  simpa using whole

theorem standalone_triggerRule {id : String} (plain : Plain id.toList) {rule : Text}
    (bound : triggerRule? id a = some rule) : Standalone rule := by
  obtain ⟨_, found, rfl⟩ := Option.map_eq_some_iff.mp bound
  obtain ⟨state, known, same⟩ := Option.bind_eq_some_iff.mp found
  cases same
  have inert : Inert state.toList := inert_triggerState known
  refine (Rule.balanced_blockLines .nil (Rule.prelude_selector plain inert)
    (.of_standalone fun t member => ?_)).unlines
  rw [List.mem_singleton.mp member]
  exact (Inline.plain_append (by decide) (inline_shorthand tidy)).standalone

end Tidy

section Tree

variable {tree : List Component}
  (tidy : ∀ c ∈ Tree.walk tree, Plain c.id.toList ∧ ∀ a ∈ c.props.animations, a.Tidy)
include tidy

theorem standalone_allKeyframes : ∀ t ∈ (ofTree tree).map keyframes, Standalone t := by
  intro t member
  obtain ⟨a, listed, rfl⟩ := List.mem_map.mp member
  obtain ⟨c, here, inside⟩ := List.mem_flatMap.mp listed
  exact standalone_keyframes ((tidy c here).2 a inside)

theorem standalone_allTriggerRules :
    ∀ t ∈ (Tree.walk tree).flatMap triggerRules, Standalone t := by
  intro t member
  obtain ⟨c, listed, inside⟩ := List.mem_flatMap.mp member
  obtain ⟨a, here, bound⟩ := List.mem_filterMap.mp inside
  exact standalone_triggerRule ((tidy c listed).2 a here) (tidy c listed).1 bound

theorem standalone_compile : Standalone (compile tree) := by
  have blocks := (Balanced.of_standalone (standalone_allKeyframes tidy)).separate
  rw [compile]
  split
  · exact Standalone.nil
  · refine Balanced.separate (.of_standalone (List.forall_mem_cons.mpr ⟨?_, ?_⟩))
    · exact Standalone.append (by decide) blocks
    · exact standalone_allTriggerRules tidy

end Tree

end Animation

end StaticSite
