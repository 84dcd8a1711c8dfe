import StaticSite.Check.Scalar

/-! # Style properties

Property names come in camel case and are written with dashes: in style maps a dash goes between a
small letter and a capital after it, in timelines before every capital.
-/

namespace StaticSite.Property

/-- Whether a character is a small ASCII letter. -/
def isSmall (c : Char) : Bool := 'a' ≤ c && c ≤ 'z'

/-- Whether a character is an ASCII capital. -/
def isCapital (c : Char) : Bool := 'A' ≤ c && c ≤ 'Z'

/-- Puts a dash between each small letter and a capital after it. -/
def dashed : Text → Text
  | a :: b :: rest =>
      if isSmall a && isCapital b then a :: '-' :: dashed (b :: rest) else a :: dashed (b :: rest)
  | t => t

/-- The name of a property of a style map. -/
def styleName (name : Text) : Text := Text.lower (dashed name)

/-- The name of a property of a timeline. -/
def timelineName (name : Text) : Text :=
  name.flatMap fun c => if isCapital c then ['-', Text.lowerChar c] else [c]

/-- A property and its value, each as text. -/
structure Declaration where
  name : Text
  value : Text
  deriving DecidableEq, Repr

namespace Declaration

/-- A declaration without a semicolon. -/
def text (d : Declaration) : Text := d.name ++ ": " ++ d.value

/-- A declaration as a line of a block. -/
def line (indent : Text) (d : Declaration) : Text := indent ++ d.text ++ ";"

/-- A property of a base style map. -/
def ofProperty (name : String) (value : Scalar) : Declaration :=
  ⟨styleName name, value.styleText⟩

/-- A property of a variant, whose values are raw data. -/
def ofRaw (name : String) (value : Value) : Declaration := ⟨styleName name, value.styleText⟩

/-- A property of a timeline. -/
def ofTimeline (name : String) (value : Scalar) : Declaration :=
  ⟨timelineName name, value.styleText⟩

end Declaration

end StaticSite.Property
