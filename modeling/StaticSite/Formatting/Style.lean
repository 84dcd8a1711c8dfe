import StaticSite.Text.Blank

/-! # Layout styles

What a layout needs to know: the unit that one level of nesting is indented by, and the width up to
which a line may stay whole.
-/

namespace StaticSite

/-- The characters that indentation is made of. -/
inductive IndentStyle
  | spaces
  | tabs
  deriving DecidableEq, Repr

/-- A layout style. -/
structure Style where
  indentStyle : IndentStyle
  indentSize : Int
  width : Int
  deriving DecidableEq, Repr

namespace Style

/-- Two spaces and a hundred columns. -/
def standard : Style := ⟨.spaces, 2, 100⟩

/-- Four spaces and eighty columns. -/
def expanded : Style := ⟨.spaces, 4, 80⟩

/-- Tabs and a hundred columns. -/
def tabs : Style := ⟨.tabs, 1, 100⟩

/-- The indentation of one level: one tab, or as many spaces as the size says, none for a negative
size. -/
def unit (style : Style) : Text :=
  match style.indentStyle with
  | .tabs => ['\t']
  | .spaces => List.replicate style.indentSize.toNat ' '

/-- The indentation of a depth. -/
def indent (style : Style) (depth : Nat) : Text := (List.replicate depth style.unit).flatten

/-- Why a style has no unit that can be written. -/
inductive UnitFault
  /-- The number of spaces is beyond 63 bits and a sign. -/
  | uncountable
  /-- The spaces can be counted and fill more than any memory. -/
  | unstorable
  deriving DecidableEq, Repr

/-- The first number of spaces that cannot be counted, two to the power of 63. -/
def countLimit : Int := 0x8000000000000000

/-- The first number of spaces that cannot be stored, two to the power of 40. -/
def storeLimit : Int := 0x10000000000

/-- What is wrong with the unit of a style. -/
def unitFault? (style : Style) : Option UnitFault :=
  match style.indentStyle with
  | .tabs => none
  | .spaces =>
      if style.indentSize < -countLimit ∨ countLimit ≤ style.indentSize then some .uncountable
      else if storeLimit ≤ style.indentSize then some .unstorable
      else none

/-- Whether a line fits the width. -/
def fits (style : Style) (line : Text) : Bool := line.length ≤ style.width

/-- A size of moderate amount has a unit. -/
theorem unitFault?_eq_none {style : Style} (low : -countLimit ≤ style.indentSize)
    (high : style.indentSize < storeLimit) : style.unitFault? = none := by
  have below : storeLimit ≤ countLimit := by decide
  unfold unitFault?
  split
  · rfl
  · rw [if_neg (by omega), if_neg (by omega)]

@[simp] theorem indent_zero (style : Style) : style.indent 0 = [] := rfl

/-- One level more puts one unit more in front. -/
theorem indent_succ (style : Style) (depth : Nat) :
    style.indent (depth + 1) = style.unit ++ style.indent depth := by
  simp [indent, List.replicate_succ]

/-- An indentation is made of spaces and tabs. -/
theorem eq_of_mem_indent {style : Style} {depth : Nat} {c : Char} (member : c ∈ style.indent depth) :
    c = ' ' ∨ c = '\t' := by
  obtain ⟨unit, copies, inside⟩ := List.mem_flatten.mp member
  obtain rfl := List.eq_of_mem_replicate copies
  unfold Style.unit at inside
  split at inside
  · exact .inr (List.mem_singleton.mp inside)
  · exact .inl (List.eq_of_mem_replicate inside)

end Style

end StaticSite
