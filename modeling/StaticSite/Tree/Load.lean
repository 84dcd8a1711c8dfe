import StaticSite.Tree.Component

/-! # Loading trees

Raw data becomes a tree by checking every field of every component. Most fields have two spellings,
the first of which counts when both are given; unknown fields are kept where they may be read by
name and ignored elsewhere.
-/

namespace StaticSite

namespace Check

/-- Checks a stop of an animation. -/
def keyframe : Value → Checked Keyframe := .model fun fields =>
  (Checked.valid Keyframe.mk).ap (.required "time" float fields)
    |>.ap (.field ["properties"] [] (.table scalar) fields)

/-- Checks how an animation runs. -/
def playback : Value → Checked Playback := .model fun fields =>
  (Checked.valid Playback.mk).ap (.field ["duration"] (.int 1000) quantity fields)
    |>.ap (.field ["delay"] (.int 0) quantity fields)
    |>.ap (.field ["easing"] "ease" text fields)
    |>.ap (.field ["loop"] false bool fields)
    |>.ap (.field ["direction"] none (.optional text) fields)

/-- Checks an animation. -/
def animation : Value → Checked Animation := .model fun fields =>
  (Checked.valid Animation.mk).ap (.required "id" text fields)
    |>.ap (.field ["name"] "Fade In" text fields)
    |>.ap (.field ["trigger"] "onLoad" text fields)
    |>.ap (.field ["timeline"] [] (.list keyframe) fields)
    |>.ap (.field ["options"] {} playback fields)

/-- Checks code that may be absent. -/
def code (names : List String) (fields : Fields) : Checked (Option String) :=
  .field names none (.optional text) fields

/-- Checks the code of a component. -/
def customCode : Value → Checked CustomCode := .model fun fields =>
  (Checked.valid CustomCode.mk).ap (code ["css"] fields)
    |>.ap (code ["javascript"] fields)
    |>.ap (code ["beforeMount", "before_mount"] fields)
    |>.ap (code ["onMount", "on_mount"] fields)
    |>.ap (code ["onClick", "on_click"] fields)
    |>.ap (code ["onHover", "on_hover"] fields)
    |>.ap (code ["onScroll", "on_scroll"] fields)

/-- Checks the code of a page. -/
def pageCode : Value → Checked PageCode := .model fun fields =>
  (Checked.valid PageCode.mk).ap (code ["css"] fields)
    |>.ap (code ["javascript"] fields)
    |>.ap (code ["headHTML", "head_html"] fields)

/-- Checks content. -/
def content : Value → Checked Content
  | .null => .valid .none
  | .text s => .valid (.text s)
  | .table fields => .valid (.block fields)
  | _ => .invalid [⟨.stringType, [.key "str"]⟩, ⟨.tableType, [.key "dict[str,any]"]⟩]

/-- The fields that are read by none of the given names; of several names the first one that is
present is the one read. -/
def remaining (names : List (List String)) (fields : Fields) : Fields :=
  let read := names.filterMap fun spellings => (Checked.lookup spellings fields).map (·.1)
  fields.filter fun (key, _) => !read.elem key

/-- Checks properties. -/
def props : Value → Checked Props := .model fun fields =>
  let customCodeNames := ["customCode", "custom_code"]
  (Checked.valid Props.mk).ap (.field ["content"] .none content fields)
    |>.ap (.field ["attributes"] [] (.table scalar) fields)
    |>.ap (.field ["animations"] [] (.list animation) fields)
    |>.ap (.field customCodeNames none (.optional customCode) fields)
    |>.ap (.valid (remaining [["content"], ["attributes"], ["animations"], customCodeNames] fields))

/-- Checks styles. -/
def styles : Value → Checked Styles := .model fun fields =>
  (Checked.valid Styles.mk).ap (.field ["base"] [] (.table scalar) fields)
    |>.ap (.valid (remaining [["base"]] fields))

/-- Joins a component's own fields with its children, which are checked elsewhere. -/
def componentWith (fields : Fields) (children : Checked (List Component)) : Checked Component :=
  (Checked.valid Component.mk).ap (.required "id" text fields)
    |>.ap (.required "type" text fields)
    |>.ap (.field ["displayName", "display_name"] "" text fields)
    |>.ap (.field ["props"] {} props fields)
    |>.ap (.field ["styles"] {} styles fields)
    |>.ap children

mutual

/-- Checks a component and everything below it. -/
def component : Value → Checked Component
  | .table fields => componentWith fields (childrenField fields)
  | _ => .issue .modelType

/-- Checks the children among the fields of a component. -/
def childrenField : List (String × Value) → Checked (List Component)
  | [] => .valid []
  | (key, v) :: rest =>
      if key = "children" then (forest v).under (.key key) else childrenField rest

/-- Checks a list of components. -/
def forest : Value → Checked (List Component)
  | .list items => componentsFrom 0 items
  | _ => .issue .listType

/-- Checks components from an index on. -/
def componentsFrom (n : Nat) : List Value → Checked (List Component)
  | [] => .valid []
  | v :: rest =>
      ((Checked.valid List.cons).ap ((component v).under (.index n))).ap
        (componentsFrom (n + 1) rest)

end

end Check

namespace Tree

/-- Why data is no tree. -/
inductive Fault
  /-- A table that holds no components. -/
  | noComponents
  | invalid (issues : List Issue)
  deriving DecidableEq, Repr

/-- The wording of a fault. -/
def Fault.message : Fault → Text
  | .noComponents => "Tree data must be a list of components or contain a 'components' list"
  | .invalid issues =>
      "Invalid component tree: " ++ Text.ofNat issues.length ++ " validation error(s)"

/-- What may help against a fault. -/
def Fault.hint : Fault → Option String
  | .noComponents => some "Wrap root nodes in a JSON array"
  | .invalid _ => none

/-- Checks a list of components, with the fault as a value. -/
def loadList (v : Value) : Except Fault (List Component) :=
  match Check.forest v with
  | .valid tree => .ok tree
  | .invalid issues => .error (.invalid issues)

/-- Loads a tree from data: a list of components, or a table that holds one. -/
def load : Value → Except Fault (List Component)
  | .table fields =>
      match Fields.get? fields "components" with
      | some v => loadList v
      | none => .error .noComponents
  | v => loadList v

end Tree

end StaticSite
