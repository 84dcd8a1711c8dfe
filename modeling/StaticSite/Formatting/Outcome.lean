import StaticSite.Markup.Layout
import StaticSite.Report.Notice

/-! # Formatting

One entrance to the layouts of markup and of stylesheets. Layout is cosmetic: a text that has none
stays as it is, and the fault is part of the outcome.
-/

namespace StaticSite.Formatting

/-- What a text is taken for. -/
inductive Kind
  | markup
  | stylesheet
  /-- Something that has no layout. -/
  | other (name : String)
  deriving DecidableEq, Repr

namespace Kind

/-- The name of a kind. -/
def label : Kind → String
  | .markup => "markup"
  | .stylesheet => "stylesheet"
  | .other name => name

/-- The kind with a name. -/
def ofName (name : String) : Kind :=
  if name = "markup" then .markup
  else if name = "stylesheet" then .stylesheet
  else .other name

end Kind

/-- Why a text has no layout. -/
inductive Fault
  | markup (fault : Markup.Fault)
  | stylesheet (fault : Stylesheet.Fault)
  | unknownKind (name : String)
  | unit (fault : Style.UnitFault)
  deriving DecidableEq, Repr

/-- The wording of a fault, with what failed in front. -/
def Fault.message : Fault → Text
  | .markup (.rejected reason) => "Formatting error: " ++ (Markup.Fault.rejected reason).message
  | .markup fault => "Parse error: " ++ fault.message
  | .stylesheet fault => "Parse error: " ++ fault.message
  | .unknownKind name => "Parse error: Unknown formatting kind: " ++ Text.quoted name
  | .unit .uncountable => "Formatting error: cannot fit 'int' into an index-sized integer"
  | .unit .unstorable => "Formatting error: "

/-- Fails where a style has no unit. -/
def checkUnit (style : Style) : Except Fault Unit :=
  match style.unitFault? with
  | some fault => .error (.unit fault)
  | none => .ok ()

/-- Lays out a text. -/
def format (kind : Kind) (style : Style) (t : Text) : Except Fault Text :=
  match kind with
  | .markup => checkUnit style >>= fun _ => (Markup.format style t).mapError .markup
  | .stylesheet => checkUnit style >>= fun _ => (Stylesheet.format style t).mapError .stylesheet
  | .other name => .error (.unknownKind name)

theorem checkUnit_eq_ok_iff {style : Style} :
    checkUnit style = .ok () ↔ style.unitFault? = none := by
  unfold checkUnit
  cases style.unitFault? <;> simp

/-- A layout is made where the style has a unit and the text has a layout. -/
theorem checkUnit_bind_eq_ok_iff {style : Style} {ε : Type} {wrap : ε → Fault}
    {laid : Except ε Text} {out : Text} :
    (checkUnit style >>= fun _ => laid.mapError wrap) = .ok out ↔
      checkUnit style = .ok () ∧ laid = .ok out := by
  cases checkUnit style with
  | error fault => simp [bind, Except.bind]
  | ok _ =>
    cases laid with
    | error fault => exact ⟨nofun, fun both => nomatch both.2⟩
    | ok text => exact ⟨fun same => ⟨rfl, congrArg _ (Except.ok.inj same)⟩,
        fun both => congrArg _ (Except.ok.inj both.2)⟩

theorem format_markup_iff {style : Style} {t out : Text} : format .markup style t = .ok out ↔
    checkUnit style = .ok () ∧ Markup.format style t = .ok out := checkUnit_bind_eq_ok_iff

theorem format_stylesheet_iff {style : Style} {t out : Text} :
    format .stylesheet style t = .ok out ↔
      checkUnit style = .ok () ∧ Stylesheet.format style t = .ok out := checkUnit_bind_eq_ok_iff

/-- What formatting a text comes to. -/
structure Outcome where
  text : Text
  changed : Bool
  errors : List Text
  deriving DecidableEq, Repr

/-- Whether a text has a layout. -/
def Outcome.success (o : Outcome) : Bool := o.errors.isEmpty

/-- Lays out a text, or keeps it with the fault. -/
def outcome (kind : Kind) (style : Style) (t : Text) : Outcome :=
  match format kind style t with
  | .ok formatted => ⟨formatted, formatted != t, []⟩
  | .error fault => ⟨t, false, [fault.message]⟩

/-- The layout of a text, or the text itself where it has none. -/
def tidy (kind : Kind) (style : Style) (t : Text) : Text := (outcome kind style t).text

/-- The notice that a text has no layout. -/
def notices (kind : Kind) (style : Style) (t : Text) : List Notice :=
  let o := outcome kind style t
  if o.success then []
  else
    [⟨.warning, .formatting, kind.label ++ " formatting failed, keeping unformatted output: " ++
      Text.joinWith "; " o.errors⟩]

/-- A text that has a layout has that for its outcome. -/
theorem tidy_of_ok {kind : Kind} {style : Style} {t formatted : Text}
    (ok : format kind style t = .ok formatted) : tidy kind style t = formatted := by
  simp [tidy, outcome, ok]

/-- A text that has no layout stays as it is. -/
theorem tidy_of_error {kind : Kind} {style : Style} {t : Text} {fault : Fault}
    (error : format kind style t = .error fault) : tidy kind style t = t := by
  simp [tidy, outcome, error]

end StaticSite.Formatting
