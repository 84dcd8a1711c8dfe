import Mathlib.Data.List.Induction
import Mathlib.Data.List.Lex
import Mathlib.Data.List.Sort
import StaticSite.Tree.Walk

/-! # Document order

A component of a tree has a place: the numbers of the siblings before it and before each component
above it, from the root down. Places are ordered like words. A component comes before what is below
it, and what is below it comes before its later siblings, so the order of places is the order of a
document, and the walk visits the component at each place once in that order. The walk is a loop over
a stack; its rounds end because every round takes one component off those that are left.
-/

namespace StaticSite.Tree

/-- The component at a place below a component. -/
def below? (c : Component) : List Nat → Option Component
  | [] => some c
  | i :: place => c.children[i]?.bind fun child => below? child place

/-- The component at a place of a forest. -/
def at? (tree : List Component) : List Nat → Option Component
  | [] => none
  | i :: place => tree[i]?.bind fun c => below? c place

/-- Whether components are those at the places of a forest, each place once and in order. -/
def InDocumentOrder (tree visited : List Component) : Prop :=
  ∃ places : List (List Nat), places.Pairwise (· < ·) ∧
    (∀ place, place ∈ places ↔ (at? tree place).isSome) ∧
    visited.map some = places.map (at? tree)

/-- A round of the walk over a stack with its top at the end: the component on top is visited, and
its children take its place, the first one on top. -/
def round? (stack : List Component) : Option (Component × List Component) :=
  stack.getLast?.map fun c => (c, stack.dropLast ++ c.children.reverse)

/-- What the rounds visit from a stack on until it is empty. -/
inductive Visits : List Component → List Component → Prop
  | done {stack : List Component} (empty : round? stack = none) : Visits stack []
  | visit {stack next visited : List Component} {c : Component}
      (round : round? stack = some (c, next)) (later : Visits next visited) :
      Visits stack (c :: visited)

/-! ## Rounds -/

theorem round?_concat (stack : List Component) (c : Component) :
    round? (stack ++ [c]) = some (c, stack ++ c.children.reverse) := by
  simp [round?]

/-- What rounds visit is what a walk visits whose stack has its top in front. -/
theorem visits_iff {stack visited : List Component} :
    Visits stack visited ↔ visited = walk stack.reverse := by
  constructor
  · intro visits
    induction visits with
    | @done stack empty =>
      obtain rfl : stack = [] := by simpa [round?] using empty
      rw [List.reverse_nil, walk]
    | @visit stack next visited c round later ih =>
      cases stack using List.reverseRecOn with
      | nil => cases round
      | append_singleton front top =>
        rw [round?_concat] at round
        obtain ⟨rfl, rfl⟩ := Prod.mk.inj (Option.some.inj round)
        rw [ih, List.reverse_concat, walk, List.reverse_append, List.reverse_reverse]
  · rintro rfl
    generalize turned : stack.reverse = front
    induction front using walk.induct generalizing stack with
    | case1 =>
      obtain rfl := List.reverse_eq_nil_iff.mp turned
      rw [walk]
      exact .done rfl
    | case2 c rest ih =>
      obtain rfl : stack = rest.reverse ++ [c] := by
        rw [← List.reverse_reverse stack, turned, List.reverse_cons]
      rw [walk]
      exact .visit (round?_concat rest.reverse c) (ih (by simp))

/-! ## Places -/

/-- The place of a component that gets one sibling more before it. -/
def later : List Nat → List Nat
  | [] => []
  | i :: place => (i + 1) :: place

mutual

/-- The places below a component in order, its own first. -/
def placesBelow : Component → List (List Nat)
  | ⟨_, _, _, _, _, children⟩ => [] :: places children

/-- The places of a forest in order. -/
def places : List Component → List (List Nat)
  | [] => []
  | c :: rest => (placesBelow c).map (0 :: ·) ++ (places rest).map later

end

theorem placesBelow_eq (c : Component) : placesBelow c = [] :: places c.children := by
  cases c
  rw [placesBelow]

theorem at?_later (c : Component) (rest : List Component) (place : List Nat) :
    at? (c :: rest) (later place) = at? rest place := by
  cases place <;> rfl

theorem nil_not_mem_places (tree : List Component) : [] ∉ places tree := by
  induction tree with
  | nil => exact List.not_mem_nil
  | cons c rest ih =>
    intro member
    rw [places, List.mem_append, List.mem_map, List.mem_map] at member
    rcases member with ⟨place, -, none⟩ | ⟨_ | ⟨i, place⟩, inside, none⟩
    · cases none
    · exact ih inside
    · cases none

theorem later_lt {p q : List Nat} (before : p < q) : later p < later q := by
  cases q with
  | nil => exact absurd before (List.not_lt_nil p)
  | cons j q =>
    cases p with
    | nil => exact List.nil_lt_cons _ _
    | cons i p =>
      rw [later, later, List.cons_lt_cons_iff]
      rcases List.cons_lt_cons_iff.mp before with earlier | ⟨rfl, inner⟩
      · exact .inl (Nat.succ_lt_succ earlier)
      · exact .inr ⟨rfl, inner⟩

mutual

theorem pairwise_placesBelow : ∀ c : Component, (placesBelow c).Pairwise (· < ·)
  | ⟨id, type, displayName, props, styles, children⟩ => by
    rw [placesBelow, List.pairwise_cons]
    refine ⟨fun place member => ?_, pairwise_places children⟩
    cases place with
    | nil => exact absurd member (nil_not_mem_places children)
    | cons i place => exact List.nil_lt_cons i place

/-- Places are listed in order. -/
theorem pairwise_places : ∀ tree : List Component, (places tree).Pairwise (· < ·)
  | [] => .nil
  | c :: rest => by
    rw [places, List.pairwise_append, List.pairwise_map, List.pairwise_map]
    refine ⟨(pairwise_placesBelow c).imp fun before => ?_, (pairwise_places rest).imp later_lt, ?_⟩
    · exact List.cons_lt_cons_iff.mpr (.inr ⟨rfl, before⟩)
    · intro p first q second
      obtain ⟨p, -, rfl⟩ := List.mem_map.mp first
      obtain ⟨_ | ⟨i, q⟩, inside, rfl⟩ := List.mem_map.mp second
      · exact absurd inside (nil_not_mem_places rest)
      · exact List.cons_lt_cons_iff.mpr (.inl (Nat.succ_pos i))

end

mutual

theorem mem_placesBelow : ∀ {c : Component} {place : List Nat},
    place ∈ placesBelow c ↔ (below? c place).isSome
  | ⟨id, type, displayName, props, styles, children⟩, [] => by
    simp [placesBelow, below?]
  | ⟨id, type, displayName, props, styles, children⟩, i :: place => by
    have inner : i :: place ∈ places children ↔ (at? children (i :: place)).isSome := mem_places
    rw [placesBelow, List.mem_cons]
    exact (or_iff_right (List.cons_ne_nil i place)).trans inner

/-- The places that are listed are those of components. -/
theorem mem_places : ∀ {tree : List Component} {place : List Nat},
    place ∈ places tree ↔ (at? tree place).isSome
  | [], place => by cases place <;> simp [places, at?]
  | c :: rest, place => by
    have own := @mem_placesBelow c
    have others := @mem_places rest
    rw [places, List.mem_append, List.mem_map, List.mem_map]
    constructor
    · rintro (⟨place, inside, rfl⟩ | ⟨place, inside, rfl⟩)
      · exact own.mp inside
      · rw [at?_later]
        exact others.mp inside
    · intro found
      match place with
      | [] => cases found
      | 0 :: place => exact .inl ⟨place, own.mpr found, rfl⟩
      | (i + 1) :: place => exact .inr ⟨i :: place, others.mpr found, rfl⟩

end

/-- At the places below a component stand the component and what is at the places of its children. -/
theorem map_below?_placesBelow (c : Component) : (placesBelow c).map (below? c) =
    some c :: (places c.children).map (at? c.children) := by
  rw [placesBelow_eq, List.map_cons]
  refine congrArg (some c :: ·) (List.map_congr_left fun place member => ?_)
  cases place with
  | nil => exact absurd member (nil_not_mem_places c.children)
  | cons i place => rfl

mutual

theorem map_some_preorder : ∀ c : Component, (preorder c).map some = (placesBelow c).map (below? c)
  | ⟨id, type, displayName, props, styles, children⟩ => by
    rw [map_below?_placesBelow, preorder, List.map_cons, map_some_preorderAll children]

/-- The components of a forest in document order are those at its places in order. -/
theorem map_some_preorderAll : ∀ tree : List Component,
    (preorderAll tree).map some = (places tree).map (at? tree)
  | [] => rfl
  | c :: rest => by
    rw [preorderAll, places, List.map_append, List.map_append, List.map_map, List.map_map,
      map_some_preorder c, map_some_preorderAll rest]
    refine congrArg _ (List.map_congr_left fun place _ => ?_)
    exact (at?_later c rest place).symm

end

theorem inDocumentOrder_iff {tree visited : List Component} :
    InDocumentOrder tree visited ↔ visited = walk tree := by
  rw [walk_eq_preorderAll]
  constructor
  · rintro ⟨listed, ordered, members, same⟩
    have alike : listed = places tree := by
      have both := (List.perm_ext_iff_of_nodup (ordered.imp ne_of_lt)
        ((pairwise_places tree).imp ne_of_lt)).mpr fun place => (members place).trans mem_places.symm
      exact both.eq_of_pairwise (fun _ _ _ _ first second => absurd second (lt_asymm first))
        ordered (pairwise_places tree)
    rw [alike, ← map_some_preorderAll] at same
    exact List.map_injective_iff.mpr (Option.some_injective Component) same
  · rintro rfl
    exact ⟨places tree, pairwise_places tree, fun _ => mem_places, map_some_preorderAll tree⟩

/-- The walk visits the components that have a place. -/
theorem mem_walk_iff {tree : List Component} {c : Component} :
    c ∈ walk tree ↔ ∃ place, at? tree place = some c := by
  have listed := map_some_preorderAll tree
  rw [← walk_eq_preorderAll] at listed
  constructor
  · intro member
    have inside := List.mem_map_of_mem (f := some) member
    rw [listed] at inside
    obtain ⟨place, -, here⟩ := List.mem_map.mp inside
    exact ⟨place, here⟩
  · rintro ⟨place, here⟩
    have inside := List.mem_map_of_mem (f := at? tree) (mem_places.mpr (by rw [here]; rfl))
    rw [← listed, here] at inside
    obtain ⟨d, member, same⟩ := List.mem_map.mp inside
    exact Option.some.inj same ▸ member

theorem length_preorderAll (tree : List Component) : (preorderAll tree).length = forestSize tree := by
  rw [← walk_eq_preorderAll]
  fun_induction walk tree with
  | case1 => rfl
  | case2 c rest ih =>
    rw [List.length_cons, ih, forestSize_append, forestSize, Component.size_eq]
    omega

/-- The rounds over a forest end, and what they have visited then is the forest in document order:
the component at each place once, a component before what is below it and that before its later
siblings. A forest behind another one is visited behind it, as many components are visited as there
are, and a trigger is found when the animation of a component at some place has it. -/
theorem walk_in_order (tree : List Component) :
    (∀ visited, Visits tree.reverse visited ↔ visited = walk tree) ∧
      (∀ visited, InDocumentOrder tree visited ↔ visited = walk tree) ∧
      walk tree = preorderAll tree ∧
      (∀ more, walk (tree ++ more) = walk tree ++ walk more) ∧
      count tree = forestSize tree ∧
      ∀ trigger, hasTrigger tree trigger = true ↔
        ∃ place c, at? tree place = some c ∧ ∃ a ∈ c.props.animations, a.trigger = trigger := by
  refine ⟨fun visited => ?_, fun visited => inDocumentOrder_iff, walk_eq_preorderAll tree,
    fun more => ?_, ?_, fun trigger => ?_⟩
  · rw [visits_iff, List.reverse_reverse]
  · rw [walk_eq_preorderAll, walk_eq_preorderAll, walk_eq_preorderAll, preorderAll_append]
  · rw [count, walk_eq_preorderAll, length_preorderAll]
  · simp only [hasTrigger, List.any_eq_true, beq_iff_eq, mem_walk_iff]
    constructor
    · rintro ⟨c, ⟨place, here⟩, animated⟩
      exact ⟨place, c, here, animated⟩
    · rintro ⟨place, c, here, animated⟩
      exact ⟨c, ⟨place, here⟩, animated⟩

end StaticSite.Tree
