import StaticSite.Proofs.Site.Rule
import StaticSite.Proofs.Stylesheet.SingleDeclaration

/-! # Blocks that are written

A block that is written around lines is read as one block with the tokens of the lines in it. The
line of a declaration is read as that one declaration, with comments from its value behind it.
-/

namespace StaticSite

open Stylesheet

/-! ## Declarations -/

/-- Whether a value is a number or a text that makes one declaration. -/
def Scalar.Single : Scalar → Prop
  | .text s => Stylesheet.Single s.toList
  | .number _ => True

/-- Whether raw data is a number or a text that makes one declaration. -/
def Value.Single : Value → Prop
  | .text s => Stylesheet.Single s.toList
  | .int _ | .float _ => True
  | _ => False

instance : (s : Scalar) → Decidable s.Single
  | .text s => inferInstanceAs (Decidable (Stylesheet.Single s.toList))
  | .number _ => .isTrue trivial

instance : (v : Value) → Decidable v.Single
  | .text s => inferInstanceAs (Decidable (Stylesheet.Single s.toList))
  | .int _ | .float _ => .isTrue trivial
  | .null | .bool _ | .list _ | .table _ | .moment _ => .isFalse id

theorem Scalar.Single.fits {s : Scalar} (single : s.Single) : s.Fits := by
  cases s with
  | text s => exact Stylesheet.Single.toFits single
  | number q => trivial

theorem Scalar.Single.lone {s : Scalar} (single : s.Single) : Lone s.styleText := by
  cases s with
  | text s => exact Stylesheet.Single.lone single
  | number q => exact q.plain_styleText.lone

theorem Value.Single.lone {v : Value} (single : v.Single) : Lone v.styleText := by
  cases v with
  | text s => exact Stylesheet.Single.lone single
  | int n => exact (plain_ofInt n).lone
  | float x => exact (Number.plain_plainFloat x).lone
  | _ => exact single.elim

namespace Property

theorem isWordPart_of_isWord {c : Char} (word : Text.IsWord c) : isWordPart c = true := by
  obtain ⟨letter, visible⟩ := word
  have part : isNamePart c = true := by
    simp only [isNamePart, isNameStart, isLetter, Bool.or_eq_true, Bool.and_eq_true,
      decide_eq_true_eq, beq_iff_eq, Char.le_def, UInt32.le_iff_toNat_le]
    rcases letter with small | beyond
    · exact .inl (.inl (.inl (.inl (.inl small))))
    · exact .inl (.inl (.inr beyond))
  rw [isWordPart, part, visible]
  rfl

theorem word_styleName {name : Text} (word : Word name) : Word (styleName name) := by
  intro c member
  rcases Text.mem_lower member with inside | small
  · rcases mem_dashed inside with here | rfl
    · exact word c here
    · decide
  · exact isWordPart_of_isWord small

namespace Declaration

/-- What a declaration is read as: its text up to the semicolon that ends it. -/
def declared (d : Declaration) : Text :=
  phrase (lexemes (d.name ++ ": ") ++ (cut 0 (lexemes d.value)).1)

/-- A declaration with a word for a name and a value that makes one declaration. -/
structure Clear (d : Declaration) : Prop where
  name : Word d.name
  value : Lone d.value

variable {d : Declaration}

theorem Clear.inline (clear : d.Clear) : Plain d.name ∧ Inline d.value :=
  ⟨clear.name.plain, clear.value.toInline⟩

theorem Clear.plain (clear : d.Clear) : Plain (d.name ++ ": ") :=
  clear.name.plain.append (by decide)

/-- The name and a colon are read as they are. -/
theorem Clear.starts_with_name (clear : d.Clear) : d.name ++ [':'] <+: d.declared := by
  have visible : ∀ c ∈ d.name ++ [':'], isBlank c = false := by
    intro c member
    rcases List.mem_append.mp member with inside | colon
    · exact clear.name.isBlank_eq_false c inside
    · rw [List.mem_singleton.mp colon]
      decide
  have start : lexemes (d.name ++ ": ") = (d.name ++ [':']).map .char ++ [.char ' '] := by
    rw [clear.plain.lexemes_eq]
    simp
  rw [declared, start, List.append_assoc, phrase_visible visible (by simp)]
  exact List.prefix_append _ _

/-- A line is read as its declaration. -/
theorem Clear.statements_line (clear : d.Clear) {indent : Text}
    (blank : ∀ c ∈ indent, isBlank c = true) :
    statements (items (d.line indent)) = [.declaration d.declared] := by
  have spaces : ∀ l ∈ indent.map Lexeme.char, l.isBlank = true := by
    simpa [Lexeme.isBlank] using blank
  have plain : Plain indent := fun c member => isPlain_of_isBlank (blank c member)
  have colon : ∃ c ∈ indent ++ (d.name ++ ": "), isBlank c = false :=
    ⟨':', by simp, by decide⟩
  have line : d.line indent = indent ++ (d.name ++ ": ") ++ d.value ++ [';'] := by
    simp [Declaration.line, text]
  rw [line, items_declaration (plain.append clear.plain) colon clear.value.toInline,
    List.map_append, List.append_assoc, phrase_blanks_append spaces, ← clear.plain.lexemes_eq,
    statements, List.filter_cons]
  exact congrArg (_ :: ·) clear.value.quiet

end Declaration

end Property

/-- A block's tokens declare what is listed, in order, comments apart. -/
structure Declares (ds : List Property.Declaration) (body : List Token) : Prop where
  read : statements body = ds.map fun d => .declaration d.declared
  named : ∀ d ∈ ds, d.name ++ [':'] <+: d.declared

/-! ## Blocks -/

namespace Rule

open Property

theorem declares_lines {ds : List Declaration} (clear : ∀ d ∈ ds, d.Clear) {indent : Text}
    (blank : ∀ c ∈ indent, isBlank c = true) :
    Declares ds ((ds.map (·.line indent)).flatMap items) := by
  refine ⟨?_, fun d member => (clear d member).starts_with_name⟩
  rw [List.flatMap_map, statements_flatMap, List.map_eq_flatMap]
  exact List.flatMap_congr fun d member => (clear d member).statements_line blank

section Indented

variable {indent start : Text} (blank : ∀ c ∈ indent, isBlank c = true) (prelude : Prelude start)
include blank prelude

/-- An indented line that opens a block has its prelude. -/
theorem items_opening : Settled (indent ++ start ++ " \x7b") ∧
    items (indent ++ start ++ " \x7b") = [.opening (phrase (lexemes start))] := by
  have plain : Plain indent := fun c member => isPlain_of_isBlank (blank c member)
  have spaces : ∀ l ∈ indent.map Lexeme.char, l.isBlank = true := by
    simpa [Lexeme.isBlank] using blank
  have opening : indent ++ start ++ " \x7b" = indent ++ (start ++ [' ']) ++ ['\x7b'] := by simp
  have read : phrase (lexemes (indent ++ (start ++ [' ']))) = phrase (lexemes start) := by
    rw [plain.lexemes_append, phrase_blanks_append spaces,
      prelude.lexemes_append_of_head? (by decide), lexemes_singleton rfl,
      phrase_append_blanks (by simp)]
  rw [opening, ← read]
  exact ((prelude.append_plain (by decide)).plain_append plain).append_opening

/-- The tokens of a block around lines. -/
theorem items_blockLines (body : List Text) :
    (blockLines indent start body).flatMap items =
      .opening (phrase (lexemes start)) :: (body.flatMap items ++ [.closing]) := by
  obtain ⟨settled, none⟩ := Settled.blanks blank
  have last : items (indent ++ ['\x7d']) = [.closing] := by
    rw [settled.items_append, none]
    rfl
  rw [blockLines, List.cons_append, List.flatMap_cons, (items_opening blank prelude).2,
    List.flatMap_append, List.flatMap_singleton]
  exact congrArg (fun closing => _ :: (body.flatMap items ++ closing)) last

end Indented

/-- A block around lines in balance is one block. -/
theorem entries_blockLines {start : Text} (prelude : Prelude start) {body : List Text}
    (even : Balanced body) :
    entries (items (Text.unlines (blockLines [] start body))) =
      [.block (phrase (lexemes start)) (body.flatMap items)] := by
  have lines := balanced_blockLines .nil prelude even
  have nested := even.nested
  rw [← balanced_eq_nested] at nested
  rw [Text.unlines, (@Settled.joinWith ['\n'] (by decide) _ lines.settled).2,
    items_blockLines (by simp) prelude]
  exact entries_block nested _

end Rule

end StaticSite
