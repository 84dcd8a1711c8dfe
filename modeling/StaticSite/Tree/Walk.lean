import StaticSite.Tree.Component

/-! # Walking trees

Every stage visits the components of a tree in document order: a component, then its children from
left to right. `walk` keeps the components still to visit on a stack; `preorder` is the same order
by recursion on the tree.
-/

namespace StaticSite

mutual

/-- The number of components from one on. -/
def Component.size : Component → Nat
  | ⟨_, _, _, _, _, children⟩ => 1 + forestSize children

/-- The number of components of a forest. -/
def forestSize : List Component → Nat
  | [] => 0
  | c :: rest => c.size + forestSize rest

end

theorem Component.size_eq (c : Component) : c.size = 1 + forestSize c.children := by
  cases c; rw [Component.size]

theorem forestSize_append (a b : List Component) :
    forestSize (a ++ b) = forestSize a + forestSize b := by
  induction a with
  | nil => simp [forestSize]
  | cons c rest ih => simp [forestSize, ih]; omega

namespace Tree

/-- The components that a stack stands for, in the order of visits: the top one, then its children
before the rest of the stack. -/
def walk : List Component → List Component
  | [] => []
  | c :: rest => c :: walk (c.children ++ rest)
  termination_by stack => forestSize stack
  decreasing_by
    simp only [forestSize_append, forestSize, Component.size_eq]
    omega

mutual

/-- A component and everything below it in document order. -/
def preorder : Component → List Component
  | ⟨id, type, displayName, props, styles, children⟩ =>
      ⟨id, type, displayName, props, styles, children⟩ :: preorderAll children

/-- A forest in document order. -/
def preorderAll : List Component → List Component
  | [] => []
  | c :: rest => preorder c ++ preorderAll rest

end

theorem preorder_eq (c : Component) : preorder c = c :: preorderAll c.children := by
  cases c; rw [preorder]

theorem preorderAll_append (a b : List Component) :
    preorderAll (a ++ b) = preorderAll a ++ preorderAll b := by
  induction a with
  | nil => simp [preorderAll]
  | cons c rest ih => simp [preorderAll, ih]

/-- Visits are in document order. -/
theorem walk_eq_preorderAll (stack : List Component) : walk stack = preorderAll stack := by
  fun_induction walk stack with
  | case1 => rfl
  | case2 c rest ih => rw [ih, preorderAll_append, preorderAll, preorder_eq, List.cons_append]

/-- Whether a component somewhere in a tree has an animation with a trigger. -/
def hasTrigger (tree : List Component) (trigger : String) : Bool :=
  (walk tree).any fun c => c.props.animations.any (·.trigger == trigger)

/-- The number of components of a tree. -/
def count (tree : List Component) : Nat := (walk tree).length

end Tree

end StaticSite
