import StaticSite.Proofs.Site.BaseRules

/-! # Which blocks animations have

The section of the animations is a heading, one block of keyframes for each animation, and one block
for each animation with a known trigger, in document order either way. A block of keyframes has one
stop for each stop of the timeline, where there is one. The block of a trigger names the keyframes of
its animation, and it holds that one declaration unless a semicolon in the easing or in the direction
ends it early.
-/

namespace StaticSite

open Stylesheet

/-- An animation with words for names and with values that make one declaration each. -/
structure Animation.Clear (a : Animation) : Prop where
  id : Word a.id.toList
  timeline : ∀ k ∈ a.timeline, ∀ p ∈ k.properties, Word p.1.toList ∧ p.2.Single
  easing : Single a.playback.easing.toList
  direction : ∀ d ∈ a.playback.direction, Single d.toList

instance (a : Animation) : Decidable a.Clear :=
  decidable_of_iff (Word a.id.toList ∧
      (∀ k ∈ a.timeline, ∀ p ∈ k.properties, Word p.1.toList ∧ p.2.Single) ∧
      Single a.playback.easing.toList ∧ ∀ d ∈ a.playback.direction, Single d.toList)
    ⟨fun all => ⟨all.1, all.2.1, all.2.2.1, all.2.2.2⟩,
      fun clear => ⟨clear.id, clear.timeline, clear.easing, clear.direction⟩⟩

/-- A component whose id is a word and whose animations are clear. -/
structure Component.Animated (c : Component) : Prop where
  id : Word c.id.toList
  animations : ∀ a ∈ c.props.animations, a.Clear

instance (c : Component) : Decidable c.Animated :=
  decidable_of_iff (Word c.id.toList ∧ ∀ a ∈ c.props.animations, a.Clear)
    ⟨fun both => ⟨both.1, both.2⟩, fun clear => ⟨clear.id, clear.animations⟩⟩

/-- No semicolon in the easing or in the direction ends a statement. -/
def Playback.Unended (p : Playback) : Prop :=
  Within 0 (marks (lexemes p.easing)) ∧ ∀ d ∈ p.direction, Within 0 (marks (lexemes d.toList))

namespace Animation

theorem Clear.tidy {a : StaticSite.Animation} (clear : a.Clear) : a.Tidy :=
  ⟨clear.id.plain, fun k listed p inside =>
    ⟨(clear.timeline k listed p inside).1.plain, (clear.timeline k listed p inside).2.fits⟩,
    clear.easing.toFits, fun d given => (clear.direction d given).toFits⟩

/-! ## Keyframes -/

/-- A stop is one block. -/
theorem entries_stopText {time declarations : Text} (prelude : Prelude time)
    (inline : Inline declarations) :
    ∃ body, entries (items (stopText time declarations)) = [.block (phrase (lexemes time)) body] := by
  have text : stopText time declarations =
      "  " ++ time ++ " \x7b" ++ (" " ++ declarations ++ " " ++ ['\x7d']) := by
    simp [stopText]
  obtain ⟨opens, start⟩ := @Rule.items_opening "  " _ (by decide) prelude
  have body : Inline (" " ++ declarations ++ " ") :=
    (inline.plain_append (by decide)).append_plain (by decide)
  have even := (standalone_iff.mp body.standalone).2
  rw [← balanced_eq_nested] at even
  rw [text, opens.items_append, start, body.items_closing]
  exact ⟨_, entries_block even _⟩

/-- The block of an animation's keyframes: it has one stop for each stop of the timeline, where there
is one. -/
def KeyframesBlock (a : StaticSite.Animation) (e : Entry) : Prop :=
  ∃ body, e = .block ("@keyframes " ++ keyframesName a) body ∧ (a.timeline ≠ [] →
    List.Forall₂ (fun k stop => ∃ inner, stop = Entry.block
      (phrase (lexemes (Number.plainFloat (k.time * 100.0) ++ "%"))) inner) a.timeline (entries body))

theorem visible_keyframesName {a : StaticSite.Animation} (word : Word a.id.toList) :
    ∀ c ∈ keyframesName a, isBlank c = false := by
  intro c member
  rcases List.mem_append.mp member with start | inside
  · have all : ∀ c ∈ "animation-".toList, isBlank c = false := by decide
    exact all c start
  · exact word.isBlank_eq_false c inside

theorem phrase_keyframes {a : StaticSite.Animation} (word : Word a.id.toList) :
    phrase (lexemes ("@keyframes " ++ keyframesName a)) = "@keyframes " ++ keyframesName a := by
  have plain : Plain ("@keyframes " ++ keyframesName a) := .append (by decide)
    (.append (by decide) word.plain)
  have visible := visible_keyframesName word
  have some : keyframesName a ≠ [] := List.append_ne_nil_of_left_ne_nil (by decide) _
  have chars : ("@keyframes " ++ keyframesName a).map Lexeme.char =
      "@keyframes".toList.map .char ++ .char ' ' :: (keyframesName a).map .char := by simp
  have name := @phraseFrom_visible _ visible true some []
  rw [List.append_nil, phraseFrom, List.append_nil] at name
  have last : (' ' :: keyframesName a).rdropWhile isBlank = ' ' :: keyframesName a := by
    refine rdropWhile_of_getLast? fun c last => visible c (List.mem_of_mem_getLast? ?_)
    rwa [List.getLast?_cons_of_ne_nil some] at last
  rw [plain.lexemes_eq, chars, phrase_visible (w := "@keyframes".toList) (by decide) (by decide),
    phraseFrom, if_pos (by decide), name]
  exact congrArg ("@keyframes".toList ++ ·) last

theorem keyframesBlock {a : StaticSite.Animation} (clear : a.Clear) :
    ∃ e, entries (items (keyframes a)) = [e] ∧ KeyframesBlock a e := by
  have stops := standalone_stops clear.tidy
  have even := Balanced.of_standalone stops
  have block := Rule.entries_blockLines (prelude_keyframes clear.tidy) even
  rw [phrase_keyframes clear.id] at block
  refine ⟨_, block, _, rfl, fun own => ?_⟩
  rw [entries_flatMap stops, if_neg (by simpa using own), List.flatMap_map]
  exact Site.forall₂_flatMap fun k listed =>
    let ⟨inner, read⟩ := entries_stopText (prelude_timelineStop k)
      (inline_timelineStop clear.tidy listed)
    ⟨_, read, inner, rfl⟩

/-! ## Triggers -/

/-- The block of an animation's trigger: its first declaration names the keyframes of the animation,
and it is the only one unless a semicolon ends it early. -/
def TriggerBlock (p : Component × StaticSite.Animation) (e : Entry) : Prop :=
  ∃ state body t rest more, triggerState? p.2.trigger = some state ∧
    e = .block (Rule.selector p.1.id ++ state) body ∧
    statements body = .declaration t :: more ∧
    Text.words t = "animation:".toList :: keyframesName p.2 :: rest ∧
    (more = [] ↔ p.2.playback.Unended)

theorem triggerState_tight {trigger state : String} (known : triggerState? trigger = some state) :
    (phraseFrom false (lexemes state.toList)).rdropWhile isBlank = state.toList := by
  have all : ∀ s ∈ ["", ":hover", ".in-view", ".clicked"],
      (phraseFrom false (lexemes s.toList)).rdropWhile isBlank = s.toList := by decide
  exact all state (mem_of_triggerState? known)

section Clear

variable {a : StaticSite.Animation} (clear : a.Clear)
include clear

/-- How an animation runs as lexemes: plain characters around the easing and the direction. -/
theorem exists_lexemes_shorthand : ∃ first middle direction : Text, Plain first ∧ Plain middle ∧
    (Within 0 (marks (lexemes direction)) ↔
      ∀ d ∈ a.playback.direction, Within 0 (marks (lexemes d.toList))) ∧
    lexemes (shorthand a) = (keyframesName a ++ [' ']).map .char ++ (first.map .char ++
      (lexemes a.playback.easing ++ (middle.map .char ++
        (lexemes direction ++ " both".toList.map .char)))) := by
  obtain ⟨first, middle, direction, start, between, inline, within, text⟩ :=
    exists_shorthand clear.tidy
  have name := (plain_keyframesName clear.tidy).append (t := [' ']) (by decide)
  have space := Plain.append (s := [' ']) (by decide) between
  have both : Plain " both" := by decide
  have cut : shorthand a = (keyframesName a ++ [' ']) ++
      (first ++ (a.playback.easing ++ (([' '] ++ middle) ++ (direction ++ " both")))) := by
    simp [text]
  refine ⟨first, [' '] ++ middle, direction, start, space, within, ?_⟩
  rw [cut, name.lexemes_append, start.lexemes_append,
    clear.tidy.easing.inline.lexemes_append_of_head? (by simp), space.lexemes_append,
    inline.lexemes_append_of_head? (by simp), both.lexemes_eq]

theorem getLast?_shorthand : (lexemes (shorthand a)).getLast? = some (.char 'h') := by
  obtain ⟨first, middle, direction, -, -, -, read⟩ := exists_lexemes_shorthand clear
  rw [read, ← List.append_assoc, ← List.append_assoc, ← List.append_assoc, ← List.append_assoc,
    List.getLast?_append]
  rfl

/-- Only the easing and the direction may hold a semicolon. -/
theorem within_shorthand :
    Within 0 (marks (lexemes (shorthand a))) ↔ a.playback.Unended := by
  obtain ⟨first, middle, direction, start, between, within, read⟩ := exists_lexemes_shorthand clear
  have name := (plain_keyframesName clear.tidy).append (t := [' ']) (by decide)
  have both : Plain " both" := by decide
  have closed : parensAfter 0 (marks (lexemes a.playback.easing)) = 0 := clear.easing.lone.closed
  have marked : marks (lexemes (shorthand a)) =
      marks (lexemes a.playback.easing) ++ marks (lexemes direction) := by
    rw [read, marks_append, marks_append, marks_append, marks_append, marks_append, name.marks_eq,
      start.marks_eq, between.marks_eq, both.marks_eq, List.append_nil]
    rfl
  rw [marked, within_append, closed, within]
  rfl

/-- The declaration starts with the name of the keyframes. -/
theorem words_triggerLine : ∃ rest,
    Text.words (phrase ("  animation: ".toList.map .char ++ (cut 0 (lexemes (shorthand a))).1)) =
      "animation:".toList :: keyframesName a :: rest := by
  obtain ⟨first, middle, direction, -, -, -, read⟩ := exists_lexemes_shorthand clear
  have name := (plain_keyframesName clear.tidy).append (t := [' ']) (by decide)
  have visible := visible_keyframesName clear.id
  have some : keyframesName a ≠ [] := List.append_ne_nil_of_left_ne_nil (by decide) _
  have inside : Within 0 (marks ((keyframesName a ++ [' ']).map Lexeme.char)) := by
    rw [Plain.marks_eq name]
    trivial
  have split (s t : Text) : Text.words (s ++ ' ' :: t) = Text.words s ++ Text.words t :=
    Text.wordsFrom_append (by decide) [] s t
  have start (rest : Text) :
      Text.words ("  animation: ".toList ++ (keyframesName a ++ [' '] ++ rest)) =
        "animation:".toList :: keyframesName a :: Text.words rest := by
    have text : "  animation: ".toList ++ (keyframesName a ++ [' '] ++ rest) =
        [' ', ' '] ++ ("animation:".toList ++ ' ' :: (keyframesName a ++ ' ' :: rest)) := by simp
    have property : Text.words "animation:" = ["animation:"] := by decide
    rw [text, Text.words_blanks_append (by decide), split, split, Text.words_of_visible visible some,
      property]
    rfl
  rw [read, cut_append inside, words_phrase, List.flatMap_append, List.flatMap_append,
    flatMap_text_chars, flatMap_text_chars, start]
  exact ⟨_, rfl⟩

/-- The declaration of a trigger's block. -/
theorem statements_triggerLine : ∃ t rest more,
    statements (items ("  animation: " ++ shorthand a ++ [';'])) = .declaration t :: more ∧
      Text.words t = "animation:".toList :: keyframesName a :: rest ∧
      (more = [] ↔ a.playback.Unended) := by
  have inline := inline_shorthand clear.tidy
  obtain ⟨rest, named⟩ := words_triggerLine clear
  refine ⟨_, rest, statements (later (lexemes (shorthand a))), ?_, named, ?_⟩
  · rw [@items_declaration "  animation: " _ (by decide)
      ⟨':', by decide, by decide⟩ inline]
    rfl
  · rw [statements_later_eq_nil_iff inline (getLast?_shorthand clear) (by decide) (by decide),
      within_shorthand clear]

theorem triggerBlock {c : Component} (word : Word c.id.toList)
    (known : (triggerState? a.trigger).isSome = true) : ∃ e,
    (triggerRule? c.id a).toList.flatMap (fun t => entries (items t)) = [e] ∧
      TriggerBlock (c, a) e := by
  obtain ⟨state, found⟩ := Option.isSome_iff_exists.mp known
  have prelude := Rule.prelude_selector word.plain (inert_triggerState found)
  have line : Balanced ["  animation: " ++ shorthand a ++ ";"] :=
    .of_standalone (List.forall_mem_singleton.mpr
      (Inline.plain_append (by decide) (inline_shorthand clear.tidy)).standalone)
  have block := Rule.entries_blockLines prelude line
  rw [Rule.phrase_selector word (triggerState_tight found), List.flatMap_singleton] at block
  obtain ⟨t, rest, more, read, named, only⟩ := statements_triggerLine clear
  rw [triggerRule?, found]
  exact ⟨_, by simpa using block, state, _, t, rest, more, found, rfl, read, named, only⟩

end Clear

/-! ## The section of the animations -/

/-- The animations of a tree with the components that have them, in document order. -/
def animated (tree : List Component) : List (Component × StaticSite.Animation) :=
  (Tree.walk tree).flatMap fun c => c.props.animations.map (c, ·)

theorem triggerRules_eq (tree : List Component) : (Tree.walk tree).flatMap triggerRules =
    (animated tree).flatMap fun p => (triggerRule? p.1.id p.2).toList := by
  rw [animated, List.flatMap_assoc]
  refine List.flatMap_congr fun c _ => ?_
  rw [triggerRules, List.filterMap_eq_flatMap_toList, List.flatMap_map]

theorem compile_eq_nil_iff (tree : List Component) :
    compile tree = [] ↔ ∀ c ∈ Tree.walk tree, c.props.animations = [] := by
  rw [← List.flatMap_eq_nil_iff, compile]
  change (if (ofTree tree).isEmpty then _ else _) = [] ↔ ofTree tree = []
  split
  · next empty => simpa using empty
  · next some =>
    refine iff_of_false ?_ (by simpa using some)
    cases (Tree.walk tree).flatMap triggerRules <;> simp [separate, Text.joinWith]

section Tree

variable {tree : List Component} (clear : ∀ c ∈ Tree.walk tree, c.Animated)
include clear

theorem forall₂_keyframesBlock : List.Forall₂ KeyframesBlock (ofTree tree)
    (((ofTree tree).map keyframes).flatMap fun t => entries (items t)) := by
  rw [List.flatMap_map]
  refine Site.forall₂_flatMap fun a listed => ?_
  obtain ⟨c, here, inside⟩ := List.mem_flatMap.mp listed
  exact keyframesBlock ((clear c here).animations a inside)

theorem forall₂_triggerBlock : List.Forall₂ TriggerBlock
    ((animated tree).filter fun p => (triggerState? p.2.trigger).isSome)
    (((Tree.walk tree).flatMap triggerRules).flatMap fun t => entries (items t)) := by
  rw [triggerRules_eq, List.flatMap_assoc]
  refine Site.forall₂_filter_flatMap (fun p listed known => ?_) fun p _ unknown => ?_
  · obtain ⟨c, here, inside⟩ := List.mem_flatMap.mp listed
    obtain ⟨a, own, rfl⟩ := List.mem_map.mp inside
    exact triggerBlock ((clear c here).animations a own) (clear c here).id known
  · have none : triggerState? p.2.trigger = none := by simpa using unknown
    rw [triggerRule?, none]
    rfl

/-- Where names are words and values make one declaration each, the section of the animations is empty
exactly where no component has any. Otherwise it is a heading, a block of keyframes for each
animation, and a block for each animation with a known trigger, in document order either way. -/
theorem entries_compile :
    (compile tree = [] ↔ ∀ c ∈ Tree.walk tree, c.props.animations = []) ∧
      (tokens (compile tree)).fault = none ∧
      (compile tree ≠ [] → ∃ frames rules,
        entries (items (compile tree)) = .comment "/* Animations */" :: (frames ++ rules) ∧
          List.Forall₂ KeyframesBlock (ofTree tree) frames ∧
          List.Forall₂ TriggerBlock
            ((animated tree).filter fun p => (triggerState? p.2.trigger).isSome) rules) := by
  have tidy : ∀ c ∈ Tree.walk tree, Plain c.id.toList ∧ ∀ a ∈ c.props.animations, a.Tidy :=
    fun c listed => ⟨(clear c listed).id.plain, fun a own =>
      ((clear c listed).animations a own).tidy⟩
  refine ⟨compile_eq_nil_iff tree, (standalone_iff.mp (standalone_compile tidy)).1.faultless,
    fun some => ⟨_, _, ?_, forall₂_keyframesBlock clear, forall₂_triggerBlock clear⟩⟩
  have frames := standalone_allKeyframes tidy
  have plain : Plain " Animations " := by decide
  obtain ⟨standalone, read⟩ :=
    Site.items_below plain (Balanced.of_standalone frames).separate
  have heading : compile tree = separate (((Lexeme.comment " Animations ").text ++ '\n' ::
      separate ((ofTree tree).map keyframes)) :: (Tree.walk tree).flatMap triggerRules) := by
    have listed : ¬ (ofTree tree).isEmpty = true := fun empty => some (if_pos empty)
    have text : "/* Animations */\n" ++ separate ((ofTree tree).map keyframes) =
        (Lexeme.comment " Animations ").text ++ '\n' ::
          separate ((ofTree tree).map keyframes) := by simp [Lexeme.text]
    rw [← text]
    exact if_neg listed
  have pieces := @entries_joinWith ['\n', '\n'] (by decide) _
    (List.forall_mem_cons.mpr ⟨standalone, standalone_allTriggerRules tidy⟩)
  have blocks := @entries_joinWith ['\n', '\n'] (by decide) _ frames
  rw [List.flatMap_cons, read] at pieces
  rw [heading, ← blocks]
  exact pieces

end Tree

/-- A container with an animation of its own stops around one whose trigger is not known. -/
def moving : Component := {
  id := "box-1", type := "container"
  props := {
    animations := [
      { id := "pop_1", trigger := "onScroll"
        timeline := [⟨0.5, [("fontSize", .number (.int 12)), ("content", .text "'\x7b'")]⟩]
        playback := { easing := "cubic-bezier(0, 0, 1, 1)", direction := some "reverse" } },
      { id := "pop_1", trigger := "onTilt" }] }
  children := [{ id := "in", type := "text", props := { animations := [{ id := "pop_1" }] } }] }

theorem entries_compile_moving :
    (∀ c ∈ Tree.walk [moving], c.Animated) ∧ ∃ frames rules,
      entries (items (compile [moving])) = .comment "/* Animations */" :: (frames ++ rules) ∧
        frames.length = 3 ∧ rules.length = 2 := by
  have clear : ∀ c ∈ Tree.walk [moving], c.Animated := by
    rw [Tree.walk_eq_preorderAll]
    decide +kernel
  have listed : (ofTree [moving]).length = 3 := by
    rw [ofTree, Tree.walk_eq_preorderAll]
    rfl
  have known : ((animated [moving]).filter fun p => (triggerState? p.2.trigger).isSome).length = 2 := by
    rw [animated, Tree.walk_eq_preorderAll]
    rfl
  obtain ⟨empty, -, blocks⟩ := entries_compile clear
  have some : compile [moving] ≠ [] := by
    rw [Ne, empty, ← List.flatMap_eq_nil_iff]
    exact List.ne_nil_of_length_eq_add_one listed
  obtain ⟨frames, rules, read, framed, ruled⟩ := blocks some
  exact ⟨clear, frames, rules, read, framed.length_eq ▸ listed, ruled.length_eq ▸ known⟩

/-- A component whose easing ends in a semicolon. -/
def hasty : Component := {
  id := "a", type := "text"
  props := { animations := [{ id := "x", playback := { easing := "ease;" } }] } }

/-- A semicolon in the easing, which makes one declaration in a block, makes two in a trigger's. -/
theorem entries_compile_hasty :
    (∀ c ∈ Tree.walk [hasty], c.Animated) ∧
      (entries (items (compile [hasty]))).drop 2 = [.block "#a" [
        .declaration "animation: animation-x 1000ms ease", .declaration "0ms 1 normal both"]] := by
  unfold compile ofTree
  rw [Tree.walk_eq_preorderAll]
  decide +kernel

end Animation

end StaticSite
