import StaticSite.Proofs.Stylesheet.Lexing
import StaticSite.Proofs.Text.Words
import StaticSite.Stylesheet.Token

/-! # Phrases as lexemes

The text of a phrase is the text of its `tightened` lexemes: runs of blanks are one space and no
blank stands at an end. Blanks around the lexemes make no difference, nor does it matter which
blanks make up a run, and lexemes that can be read back stay so. A phrase has the words of its text.
-/

namespace StaticSite.Stylesheet

/-- Lexemes with each run of blanks as one space; `after` tells that a blank went before. -/
def squeezed (after : Bool) : List Lexeme → List Lexeme
  | [] => []
  | l :: rest =>
      if l.isBlank then (if after then [] else [.char ' ']) ++ squeezed true rest
      else l :: squeezed false rest

/-- Lexemes without the blanks at their ends. -/
def trimmed (ls : List Lexeme) : List Lexeme :=
  (ls.dropWhile Lexeme.isBlank).rdropWhile Lexeme.isBlank

/-- The lexemes that a phrase consists of. -/
def tightened (ls : List Lexeme) : List Lexeme := trimmed (squeezed false ls)

theorem isInfix_trimmed (ls : List Lexeme) : trimmed ls <:+: ls :=
  (List.rdropWhile_prefix _ _).isInfix.trans (List.dropWhile_suffix _).isInfix

@[simp] theorem isBlank_space : (Lexeme.char ' ').isBlank = true := rfl

/-- Only characters are blank. -/
theorem Lexeme.eq_char_of_isBlank {l : Lexeme} (blank : l.isBlank = true) :
    ∃ c, l = .char c ∧ StaticSite.isBlank c = true := by
  cases l with
  | char c => exact ⟨c, rfl, blank⟩
  | _ => simp [Lexeme.isBlank] at blank

/-! ## Texts -/

theorem flatMap_text_squeezed (after : Bool) (ls : List Lexeme) :
    (squeezed after ls).flatMap Lexeme.text = phraseFrom after ls := by
  induction ls generalizing after with
  | nil => rfl
  | cons l rest ih =>
    cases l with
    | char c =>
      by_cases blank : StaticSite.isBlank c = true
      · cases after <;> simp [squeezed, phraseFrom, Lexeme.isBlank, Lexeme.text, blank, ih]
      · simp [squeezed, phraseFrom, Lexeme.isBlank, Lexeme.text, blank, ih]
    | _ => simp [squeezed, phraseFrom, Lexeme.isBlank, ih]

theorem isBlank_of_isQuote {c : Char} (quote : isQuote c = true) :
    StaticSite.isBlank c = false := by
  simp only [isQuote, Bool.or_eq_true, beq_iff_eq] at quote
  rcases quote with rfl | rfl <;> decide

/-- The text of a lexeme starts and ends with the same kind of character: a blank one if the lexeme
is blank, a visible one otherwise. -/
theorem Lexeme.Whole.text_ends {l : Lexeme} (whole : l.Whole) :
    ∃ first last middle, l.text.head? = some first ∧ l.text = middle ++ [last] ∧
      StaticSite.isBlank first = l.isBlank ∧ StaticSite.isBlank last = l.isBlank := by
  cases l with
  | comment body =>
    exact ⟨'/', '/', '/' :: '*' :: body ++ ['*'], rfl, by simp [Lexeme.text], rfl, rfl⟩
  | quoted quote body =>
    have visible := isBlank_of_isQuote whole.1
    exact ⟨quote, quote, quote :: body, rfl, rfl, visible, visible⟩
  | char c => exact ⟨c, c, [], rfl, rfl, rfl, rfl⟩
  | openComment body => exact whole.elim
  | openQuoted quote body => exact whole.elim

/-- The first lexeme decides which character a text starts with. -/
theorem head?_flatMap_text {ls ms : List Lexeme} (same : ls.head? = ms.head?) :
    (ls.flatMap Lexeme.text).head? = (ms.flatMap Lexeme.text).head? := by
  have some (l : Lexeme) : ∃ c more, l.text = c :: more := by cases l <;> exact ⟨_, _, rfl⟩
  cases ls with
  | nil =>
    obtain rfl : ms = [] := List.head?_eq_none_iff.mp same.symm
    rfl
  | cons l rest =>
    obtain ⟨more, rfl⟩ := List.head?_eq_some_iff.mp same.symm
    obtain ⟨c, others, text⟩ := some l
    simp [text]

theorem isBlank_of_head?_text {ls : List Lexeme} (whole : ∀ l ∈ ls, l.Whole)
    (head : ∀ l ∈ ls.head?, l.isBlank = false) :
    ∀ c ∈ (ls.flatMap Lexeme.text).head?, StaticSite.isBlank c = false := by
  cases ls with
  | nil => simp
  | cons l rest =>
    obtain ⟨first, -, -, starts, -, visible, -⟩ := (whole l List.mem_cons_self).text_ends
    obtain ⟨more, text⟩ := List.head?_eq_some_iff.mp starts
    simp [text, visible, head l rfl]

theorem isBlank_of_getLast?_text {ls : List Lexeme} (whole : ∀ l ∈ ls, l.Whole)
    (last : ∀ l ∈ ls.getLast?, l.isBlank = false) :
    ∀ c ∈ (ls.flatMap Lexeme.text).getLast?, StaticSite.isBlank c = false := by
  cases ls using List.reverseRecOn with
  | nil => simp
  | append_singleton rest l =>
    obtain ⟨-, final, middle, -, text, -, visible⟩ := (whole l (by simp)).text_ends
    simp [text, visible, last l (by simp)]

theorem dropWhile_flatMap_text {ls : List Lexeme} (whole : ∀ l ∈ ls, l.Whole) :
    (ls.flatMap Lexeme.text).dropWhile StaticSite.isBlank =
      (ls.dropWhile Lexeme.isBlank).flatMap Lexeme.text := by
  induction ls with
  | nil => rfl
  | cons l rest ih =>
    obtain ⟨first, -, -, starts, -, visible, -⟩ := (whole l List.mem_cons_self).text_ends
    obtain ⟨more, text⟩ := List.head?_eq_some_iff.mp starts
    by_cases blank : l.isBlank = true
    · obtain ⟨c, rfl, isBlank⟩ := Lexeme.eq_char_of_isBlank blank
      have others := ih fun m member => whole m (List.mem_cons_of_mem _ member)
      simp [Lexeme.text, Lexeme.isBlank, isBlank, others]
    · simp only [blank] at visible
      simp [text, visible, blank]

theorem rdropWhile_flatMap_text {ls : List Lexeme} (whole : ∀ l ∈ ls, l.Whole) :
    (ls.flatMap Lexeme.text).rdropWhile StaticSite.isBlank =
      (ls.rdropWhile Lexeme.isBlank).flatMap Lexeme.text := by
  induction ls using List.reverseRecOn with
  | nil => rfl
  | append_singleton rest l ih =>
    obtain ⟨-, last, middle, -, text, -, visible⟩ := (whole l (by simp)).text_ends
    by_cases blank : l.isBlank = true
    · obtain ⟨c, rfl, isBlank⟩ := Lexeme.eq_char_of_isBlank blank
      have others := ih fun m member => whole m (List.mem_append_left _ member)
      rw [List.rdropWhile_concat_pos _ _ _ blank, ← others, List.flatMap_append]
      simp only [List.flatMap_singleton, Lexeme.text]
      rw [List.rdropWhile_concat_pos _ _ _ isBlank]
    · rw [List.rdropWhile_concat_neg _ _ _ blank, List.flatMap_append, List.flatMap_singleton, text,
        ← List.append_assoc, List.rdropWhile_concat_neg _ _ _ (by simpa [visible] using blank)]

theorem trim_flatMap_text {ls : List Lexeme} (whole : ∀ l ∈ ls, l.Whole) :
    Text.trim (ls.flatMap Lexeme.text) = (trimmed ls).flatMap Lexeme.text := by
  have inner : ∀ l ∈ ls.dropWhile Lexeme.isBlank, l.Whole := fun l member =>
    whole l ((List.dropWhile_suffix _).subset member)
  rw [trimmed, ← rdropWhile_flatMap_text inner, ← dropWhile_flatMap_text whole]
  rfl

/-! ## Squeezing -/

theorem head?_squeezed (ls : List Lexeme) :
    (squeezed false ls).head? = ls.head?.map fun l => if l.isBlank then .char ' ' else l := by
  cases ls with
  | nil => rfl
  | cons l rest => by_cases blank : l.isBlank = true <;> simp [squeezed, blank]

theorem lexed_squeezed {ls : List Lexeme} (lexed : Lexed ls) (after : Bool) :
    Lexed (squeezed after ls) := by
  induction ls generalizing after with
  | nil => exact lexed
  | cons l rest ih =>
    obtain ⟨whole, apart, others⟩ := lexed_cons.mp lexed
    rw [squeezed]
    split
    · cases after
      · refine lexed_cons.mpr ⟨rfl, ?_, ih others true⟩
        rintro m - ⟨space, -⟩
        exact absurd space (by decide)
      · exact ih others true
    · refine lexed_cons.mpr ⟨whole, ?_, ih others false⟩
      intro m next
      rw [head?_squeezed] at next
      obtain ⟨first, head, rfl⟩ := Option.map_eq_some_iff.mp next
      split
      · rintro ⟨-, space⟩
        exact absurd space (by decide)
      · exact apart first head

theorem lexed_tightened {ls : List Lexeme} (lexed : Lexed ls) : Lexed (tightened ls) :=
  (lexed_squeezed lexed false).within (isInfix_trimmed _)

/-- Whether the last lexeme is blank; `after` tells that a blank went before all of them. -/
def endsBlank (after : Bool) (ls : List Lexeme) : Bool := (ls.getLast?.map Lexeme.isBlank).getD after

theorem squeezed_append (after : Bool) (ls ms : List Lexeme) :
    squeezed after (ls ++ ms) = squeezed after ls ++ squeezed (endsBlank after ls) ms := by
  induction ls generalizing after with
  | nil => rfl
  | cons l rest ih =>
    have last : endsBlank after (l :: rest) = endsBlank l.isBlank rest := by
      cases rest <;> simp [endsBlank, List.getLast?_cons]
    rw [last, List.cons_append, squeezed, squeezed, ih true, ih false]
    by_cases blank : l.isBlank = true <;> simp [blank]

/-- A run of blanks is one space, or nothing behind a blank. -/
theorem squeezed_blanks {bs : List Lexeme} (blanks : ∀ b ∈ bs, b.isBlank = true) (some : bs ≠ [])
    (after : Bool) (ls : List Lexeme) :
    squeezed after (bs ++ ls) = (if after then [] else [.char ' ']) ++ squeezed true ls := by
  induction bs generalizing after with
  | nil => exact absurd rfl some
  | cons b rest ih =>
    rw [List.cons_append, squeezed, if_pos (blanks b List.mem_cons_self)]
    cases rest with
    | nil => rfl
    | cons c more =>
      rw [ih (fun d member => blanks d (List.mem_cons_of_mem _ member)) (by simp)]
      simp

theorem isBlank_of_mem_squeezed (after : Bool) {ls : List Lexeme}
    (blanks : ∀ l ∈ ls, l.isBlank = true) : ∀ l ∈ squeezed after ls, l.isBlank = true := by
  cases ls with
  | nil => simp [squeezed]
  | cons l rest =>
    have run := squeezed_blanks blanks (by simp) after []
    rw [List.append_nil] at run
    rw [run]
    cases after <;> simp [squeezed]

theorem isBlank_of_mem_text {bs : List Lexeme} (blanks : ∀ b ∈ bs, b.isBlank = true) :
    ∀ c ∈ bs.flatMap Lexeme.text, StaticSite.isBlank c = true := by
  intro c member
  obtain ⟨b, inside, part⟩ := List.mem_flatMap.mp member
  obtain ⟨d, rfl, blank⟩ := Lexeme.eq_char_of_isBlank (blanks b inside)
  obtain rfl : c = d := by simpa [Lexeme.text] using part
  exact blank

/-- Behind a blank a space at the start is missing, and nothing else. -/
theorem exists_squeezed_eq (ls : List Lexeme) :
    ∃ bs, (∀ b ∈ bs, b.isBlank = true) ∧ squeezed false ls = bs ++ squeezed true ls := by
  cases ls with
  | nil => exact ⟨[], by simp, rfl⟩
  | cons l rest =>
    by_cases blank : l.isBlank = true
    · exact ⟨[.char ' '], by simp, by simp [squeezed, blank]⟩
    · exact ⟨[], by simp, by simp [squeezed, blank]⟩

/-- Blanks in front of lexemes make no difference to their phrase. -/
theorem phrase_blanks_append {bs : List Lexeme} (blanks : ∀ b ∈ bs, b.isBlank = true)
    (ls : List Lexeme) : phrase (bs ++ ls) = phrase ls := by
  have inner (cs : List Lexeme) (spaces : ∀ c ∈ cs, c.isBlank = true) :
      Text.trim ((cs ++ squeezed true ls).flatMap Lexeme.text) =
        Text.trim ((squeezed true ls).flatMap Lexeme.text) := by
    rw [List.flatMap_append, Text.trim_blanks_append (isBlank_of_mem_text spaces)]
  by_cases none : bs = []
  · rw [none, List.nil_append]
  · obtain ⟨cs, spaces, same⟩ := exists_squeezed_eq ls
    rw [phrase, phrase, ← flatMap_text_squeezed, ← flatMap_text_squeezed,
      squeezed_blanks blanks none, same, inner cs spaces, if_neg (by simp), inner _ (by simp)]

/-- Blanks behind lexemes make no difference to their phrase. -/
theorem phrase_append_blanks {bs : List Lexeme} (blanks : ∀ b ∈ bs, b.isBlank = true)
    (ls : List Lexeme) : phrase (ls ++ bs) = phrase ls := by
  have spaces := isBlank_of_mem_text (isBlank_of_mem_squeezed (endsBlank false ls) blanks)
  rw [phrase, ← flatMap_text_squeezed, squeezed_append, List.flatMap_append, flatMap_text_squeezed,
    Text.trim_append_blanks spaces, phrase]

theorem phrase_of_blanks {bs : List Lexeme} (blanks : ∀ b ∈ bs, b.isBlank = true) :
    phrase bs = [] := by
  have padded := phrase_append_blanks blanks []
  rwa [List.nil_append] at padded

/-- A phrase is the text of the lexemes that it is tightened to. -/
theorem phrase_eq {ls : List Lexeme} (lexed : Lexed ls) :
    phrase ls = (tightened ls).flatMap Lexeme.text := by
  rw [phrase, ← flatMap_text_squeezed, trim_flatMap_text (lexed_squeezed lexed false).1, tightened]

/-- A phrase is read back as the lexemes that it consists of. -/
theorem lexemes_phrase {ls : List Lexeme} (lexed : Lexed ls) :
    lexemes (phrase ls) = tightened ls := by
  rw [phrase_eq lexed, lexemes_flatMap_text (lexed_tightened lexed)]

/-! ## What blanks do not count for -/

/-- What blanks at the ends make no difference to is the same for trimmed lexemes. -/
theorem apply_trimmed {β : Type} {f : List Lexeme → β}
    (front : ∀ bs : List Lexeme, (∀ b ∈ bs, b.isBlank = true) → ∀ ls, f (bs ++ ls) = f ls)
    (back : ∀ bs : List Lexeme, (∀ b ∈ bs, b.isBlank = true) → ∀ ls, f (ls ++ bs) = f ls)
    (ls : List Lexeme) : f (trimmed ls) = f ls := by
  have left := front (ls.takeWhile Lexeme.isBlank) (fun b member => List.mem_takeWhile_imp member)
    (ls.dropWhile Lexeme.isBlank)
  have right := back ((ls.dropWhile Lexeme.isBlank).rtakeWhile Lexeme.isBlank)
    (fun b member => List.mem_rtakeWhile_imp member) (trimmed ls)
  rw [trimmed, List.rdropWhile_append_rtakeWhile, ← trimmed] at right
  rw [List.takeWhile_append_dropWhile] at left
  exact right.symm.trans left.symm

section Structure

variable {β : Type} {f : Lexeme → Option β} (unseen : ∀ l, l.isBlank = true → f l = none)
include unseen

theorem filterMap_of_blanks {bs : List Lexeme} (blanks : ∀ b ∈ bs, b.isBlank = true) :
    bs.filterMap f = [] := by
  simpa using fun b member => unseen b (blanks b member)

theorem filterMap_squeezed (after : Bool) (ls : List Lexeme) :
    (squeezed after ls).filterMap f = ls.filterMap f := by
  have space : f (.char ' ') = none := unseen _ rfl
  induction ls generalizing after with
  | nil => rfl
  | cons l rest ih =>
    rw [squeezed, List.filterMap_cons]
    split
    · next blank => cases after <;> simp [ih, space, unseen l blank]
    · rw [List.filterMap_cons, ih]

theorem filterMap_trimmed (ls : List Lexeme) : (trimmed ls).filterMap f = ls.filterMap f :=
  apply_trimmed (fun bs blanks ms => by rw [List.filterMap_append, filterMap_of_blanks unseen blanks,
    List.nil_append])
    (fun bs blanks ms => by rw [List.filterMap_append, filterMap_of_blanks unseen blanks,
      List.append_nil]) ls

end Structure

/-! ## The words of a phrase -/

/-- Squeezing keeps the words; behind a blank no word is begun. -/
theorem wordsFrom_squeezed {after : Bool} {word : Text} (fresh : after = true → word = [])
    (ls : List Lexeme) :
    Text.wordsFrom word ((squeezed after ls).flatMap Lexeme.text) =
      Text.wordsFrom word (ls.flatMap Lexeme.text) := by
  induction ls generalizing after word with
  | nil => rfl
  | cons l rest ih =>
    by_cases blank : l.isBlank = true
    · obtain ⟨c, rfl, isBlank⟩ := Lexeme.eq_char_of_isBlank blank
      have inner := @ih true [] fun _ => rfl
      have space : StaticSite.isBlank ' ' = true := by decide
      cases after with
      | false => simp [squeezed, blank, Lexeme.text, Text.wordsFrom, isBlank, space, inner]
      | true => simp [squeezed, blank, Lexeme.text, Text.wordsFrom, isBlank, fresh rfl, inner]
    · obtain ⟨before, begun, goes⟩ := Text.exists_wordsFrom_append word l.text
      have inner := @ih false begun (by simp)
      rw [squeezed, if_neg blank, List.flatMap_cons, List.flatMap_cons, goes, goes, inner]

theorem words_squeezed (ls : List Lexeme) :
    Text.words ((squeezed false ls).flatMap Lexeme.text) = Text.words (ls.flatMap Lexeme.text) :=
  wordsFrom_squeezed (by simp) ls

/-- A phrase has the words of the text that it is read from. -/
theorem words_phrase (ls : List Lexeme) :
    Text.words (phrase ls) = Text.words (ls.flatMap Lexeme.text) := by
  rw [phrase, Text.words_trim, ← flatMap_text_squeezed, words_squeezed]

/-! ## Spaced lexemes -/

/-- Lexemes whose blanks are single spaces. -/
def Spaced (ls : List Lexeme) : Prop :=
  (∀ l ∈ ls, l.isBlank = true → l = .char ' ') ∧
    ls.IsChain fun a b => ¬ (a.isBlank = true ∧ b.isBlank = true)

theorem spaced_cons {l : Lexeme} {ls : List Lexeme} :
    Spaced (l :: ls) ↔ (l.isBlank = true → l = .char ' ') ∧
      (∀ m ∈ ls.head?, l.isBlank = true → m.isBlank = false) ∧ Spaced ls := by
  simp only [Spaced, List.forall_mem_cons, List.isChain_cons, not_and, Bool.not_eq_true]
  tauto

theorem Spaced.within {ls ms : List Lexeme} (spaced : Spaced ls) (within : ms <:+: ls) :
    Spaced ms :=
  ⟨fun l member => spaced.1 l (within.subset member), List.IsChain.infix spaced.2 within⟩

theorem spaced_append {ls ms : List Lexeme} (left : Spaced ls) (right : Spaced ms)
    (joint : ∀ l ∈ ls.getLast?, ∀ m ∈ ms.head?, ¬ (l.isBlank = true ∧ m.isBlank = true)) :
    Spaced (ls ++ ms) := by
  refine ⟨fun l member => ?_, left.2.append right.2 joint⟩
  rcases List.mem_append.mp member with first | second
  · exact left.1 l first
  · exact right.1 l second

/-- Squeezing leaves single spaces only, and none at the start behind a blank. -/
theorem spaced_squeezed (after : Bool) (ls : List Lexeme) :
    Spaced (squeezed after ls) ∧
      (after = true → ∀ l ∈ (squeezed after ls).head?, l.isBlank = false) := by
  induction ls generalizing after with
  | nil => exact ⟨⟨by simp [squeezed], .nil⟩, by simp [squeezed]⟩
  | cons l rest ih =>
    rw [squeezed]
    split
    · cases after
      · exact ⟨spaced_cons.mpr ⟨fun _ => rfl, fun m next _ => (ih true).2 rfl m next, (ih true).1⟩,
          fun absurd => by cases absurd⟩
      · exact ih true
    · next visible =>
      exact ⟨spaced_cons.mpr ⟨fun blank => absurd blank visible,
        fun m _ blank => absurd blank visible, (ih false).1⟩, fun _ => by simpa using visible⟩

/-- Squeezing changes nothing where every blank is a single space. -/
theorem squeezed_of_spaced {after : Bool} {ls : List Lexeme} (spaced : Spaced ls)
    (start : after = true → ∀ l ∈ ls.head?, l.isBlank = false) : squeezed after ls = ls := by
  induction ls generalizing after with
  | nil => rfl
  | cons l rest ih =>
    obtain ⟨space, next, others⟩ := spaced_cons.mp spaced
    by_cases blank : l.isBlank = true
    · have outside : after = false := by
        by_contra inside
        have visible := start (by simpa using inside) l rfl
        simp [blank] at visible
      have tail := @ih true others fun _ m head => next m head blank
      simp [squeezed, outside, tail, space blank]
    · have tail := @ih false others fun inside => by cases inside
      simp [squeezed, blank, tail]

theorem tightened_of_spaced {ls : List Lexeme} (spaced : Spaced ls) : tightened ls = trimmed ls := by
  rw [tightened, squeezed_of_spaced spaced (fun inside => by cases inside)]

/-- Nothing is trimmed where no blank stands at an end. -/
theorem trimmed_of_ends {ls : List Lexeme} (head : ∀ l ∈ ls.head?, l.isBlank = false)
    (last : ∀ l ∈ ls.getLast?, l.isBlank = false) : trimmed ls = ls := by
  rw [trimmed, dropWhile_of_head? head, rdropWhile_of_getLast? last]

theorem head?_trimmed (ls : List Lexeme) : ∀ l ∈ (trimmed ls).head?, l.isBlank = false :=
  fun l first => head?_dropWhile ls l (mem_head?_of_start (List.rdropWhile_prefix _ _) l first)

/-- Lexemes that start with a visible one keep it. -/
theorem head?_trimmed_of_head? {ls : List Lexeme} (head : ∀ l ∈ ls.head?, l.isBlank = false) :
    (trimmed ls).head? = ls.head? := by
  rw [trimmed, dropWhile_of_head? head, head?_rdropWhile head]

theorem getLast?_trimmed (ls : List Lexeme) :
    ∀ l ∈ (trimmed ls).getLast?, l.isBlank = false := getLast?_rdropWhile _

theorem spaced_tightened (ls : List Lexeme) : Spaced (tightened ls) :=
  (spaced_squeezed false ls).1.within (isInfix_trimmed _)

end StaticSite.Stylesheet
