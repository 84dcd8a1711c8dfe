import StaticSite.Proofs.Markup.Constructs
import StaticSite.Proofs.Result

/-! # Balanced markup

Reading succeeds exactly when the tags of a text balance, and the tags of the nodes are then those of
the text. An element that closes itself is complete with its tag, with a slash or without, and so is
every other element whose tag has a slash. An end tag of an element that closes itself counts only
when no such element has come before that still allows for one.
-/

namespace StaticSite.Markup

/-! ## Tags that balance -/

/-- The start or the end of an element. -/
inductive Tag
  | start (name : Text) (attributes : Attributes)
  | finish (name : Text)
  deriving DecidableEq, Repr

/-- Every end belongs to the innermost element that is open, and none stays open. -/
inductive Balanced : List Tag → Prop
  | nil : Balanced []
  | element {name : Text} {attributes : Attributes} {inner rest : List Tag}
      (content : Balanced inner) (later : Balanced rest) :
      Balanced (.start name attributes :: inner ++ .finish name :: rest)

/-- The names of the elements that are open behind tags, innermost first. -/
def openAfter? : List Text → List Tag → Option (List Text)
  | names, [] => some names
  | names, .start name _ :: rest => openAfter? (name :: names) rest
  | [], .finish _ :: _ => none
  | name :: names, .finish other :: rest => if name = other then openAfter? names rest else none

theorem openAfter?_append (names : List Text) (first second : List Tag) :
    openAfter? names (first ++ second) =
      (openAfter? names first).bind fun between => openAfter? between second := by
  fun_induction openAfter? names first with
  | case1 => rfl
  | case2 names name attributes rest ih => exact ih
  | case3 => rfl
  | case4 name names rest ih =>
    rw [List.cons_append, openAfter?, if_pos rfl]
    exact ih
  | case5 name names other rest apart =>
    rw [List.cons_append, openAfter?, if_neg apart]
    rfl

theorem Balanced.openAfter?_eq {tags : List Tag} (balanced : Balanced tags) (names : List Text) :
    openAfter? names tags = some names := by
  induction balanced generalizing names with
  | nil => rfl
  | @element name attributes inner rest content later inside behind =>
    rw [List.cons_append, openAfter?, openAfter?_append, inside, Option.bind_some, openAfter?,
      if_pos rfl, behind]

/-- Whether tags close open elements one after the other, with balanced tags in between. -/
def Closes : List Text → List Tag → Prop
  | [], tags => Balanced tags
  | name :: names, tags =>
      ∃ inner rest, Balanced inner ∧ tags = inner ++ .finish name :: rest ∧ Closes names rest

/-- An element in front does not matter. -/
theorem Closes.element {names : List Text} {name : Text} {attributes : Attributes}
    {inner rest : List Tag} (content : Balanced inner) (later : Closes names rest) :
    Closes names (.start name attributes :: inner ++ .finish name :: rest) := by
  cases names with
  | nil => exact Balanced.element content later
  | cons outer names =>
    obtain ⟨between, behind, balanced, rfl, others⟩ := later
    have block : Balanced (.start name attributes :: inner ++ .finish name :: between) :=
      .element content balanced
    exact ⟨_, behind, block, by simp, others⟩

theorem closes_of_openAfter? {names : List Text} {tags : List Tag}
    (all : openAfter? names tags = some []) : Closes names tags := by
  fun_induction openAfter? names tags with
  | case1 names =>
    obtain rfl := Option.some.inj all
    exact Balanced.nil
  | case2 names name attributes rest ih =>
    obtain ⟨inner, behind, balanced, rfl, others⟩ := ih all
    exact .element balanced others
  | case3 => cases all
  | case4 name names rest ih => exact ⟨[], rest, .nil, rfl, ih all⟩
  | case5 name names other rest apart => cases all

theorem balanced_iff {tags : List Tag} : Balanced tags ↔ openAfter? [] tags = some [] :=
  ⟨fun balanced => balanced.openAfter?_eq [], closes_of_openAfter?⟩

/-! ## Tags of nodes and of tokens -/

mutual

/-- The tags of a node in the order of the document. -/
def Node.tags : Node → List Tag
  | .element name attributes children =>
      .start name attributes :: tagsAll children ++ [.finish name]
  | _ => []

/-- The tags of nodes in the order of the document. -/
def tagsAll : List Node → List Tag
  | [] => []
  | node :: rest => node.tags ++ tagsAll rest

end

theorem tagsAll_append (ns ms : List Node) : tagsAll (ns ++ ms) = tagsAll ns ++ tagsAll ms := by
  induction ns with
  | nil => rfl
  | cons n rest ih => simp [tagsAll, ih]

namespace Token

/-- The tags of a token: an element that closes itself is complete at once, with a slash or without,
and so is every other element with a slash. -/
def tags : Token → List Tag
  | .start name attributes closed =>
      if closed || selfClosingElements.elem name then [.start name attributes, .finish name]
      else [.start name attributes]
  | .finish name => [.finish name]
  | _ => []

/-- The tags of a token as they count behind elements that have closed themselves: an end of such an
element is the one that was left out. -/
def counted (settled : List Text) : Token → List Tag
  | .finish name => if settled.elem name then [] else [.finish name]
  | token => token.tags

/-- The elements that have closed themselves and still allow for an end tag. -/
def settles (settled : List Text) : Token → List Text
  | .start name _ false => if selfClosingElements.elem name then name :: settled else settled
  | .finish name => settled.erase name
  | _ => settled

end Token

/-- The tags of tokens as they count. -/
def countedTags (settled : List Text) : List Token → List Tag
  | [] => []
  | token :: rest => token.counted settled ++ countedTags (token.settles settled) rest

/-! ## What one token does -/

/-- The tags of what stands before the innermost element that is open, the starts of the open ones
among them. -/
def frameTags : List Frame → List Tag
  | [] => []
  | frame :: outer =>
      frameTags outer ++ tagsAll frame.before.reverse ++ [.start frame.name frame.attributes]

namespace Progress

/-- The names of the elements that are open, innermost first. -/
def names (p : Progress) : List Text := p.frames.map Frame.name

/-- The tags that have been read. -/
def tags (p : Progress) : List Tag := frameTags p.frames ++ tagsAll p.nodes.reverse

/-- Whether reading tags leads on from what has been read. -/
structure Passes (p : Progress) (ts : List Tag) (q : Progress) : Prop where
  names : openAfter? p.names ts = some q.names
  tags : q.tags = p.tags ++ ts

variable {p q : Progress}

theorem tagsAll_flushed (p : Progress) :
    tagsAll (p.pendingNodes ++ p.nodes).reverse = tagsAll p.nodes.reverse := by
  rw [List.reverse_append, tagsAll_append]
  unfold pendingNodes
  split <;> simp [tagsAll, Node.tags]

theorem passes_add (node : Text → Node) (content : Text) (bare : ∀ t, (node t).tags = []) :
    p.Passes [] (p.add node content) := by
  rw [add_eq]
  refine ⟨rfl, ?_⟩
  rw [tags, List.reverse_cons, tagsAll_append, tagsAll_flushed, tagsAll, bare, tags]
  simp [tagsAll]

theorem passes_openElement (name : Text) (attributes : Attributes) :
    p.Passes [.start name attributes] (p.openElement name attributes) := by
  rw [openElement_eq]
  refine ⟨rfl, ?_⟩
  rw [tags, frameTags, tagsAll_flushed, tags]
  simp [tagsAll]

/-- An element without content leads on by its tags. -/
theorem passes_empty (name : Text) (attributes : Attributes) (settled : List Text) :
    p.Passes [.start name attributes, .finish name]
      ⟨p.frames, .element name attributes [] :: (p.pendingNodes ++ p.nodes), [], settled⟩ := by
  refine ⟨by simp [openAfter?, names], ?_⟩
  rw [tags, List.reverse_cons, tagsAll_append, tagsAll_flushed, tags]
  simp [tagsAll, Node.tags]

theorem passes_closeElement {name : Text} (closes : p.closeElement name = .ok q) :
    p.Passes [.finish name] q ∧ q.settled = p.settled := by
  cases open_ : p.frames with
  | nil => simp [closeElement, flush_eq, open_] at closes
  | cons frame outer =>
    obtain ⟨inner, attributes, before⟩ := frame
    by_cases same : inner = name
    · subst same
      rw [closeElement_eq open_] at closes
      obtain rfl := Except.ok.inj closes
      refine ⟨⟨?_, ?_⟩, rfl⟩
      · rw [names, open_, List.map_cons, openAfter?, if_pos rfl]
        rfl
      · rw [tags, tags, open_, List.reverse_cons, tagsAll_append, tagsAll, Node.tags,
          tagsAll_flushed, frameTags]
        simp [tagsAll]
    · simp [closeElement, flush_eq, open_, same] at closes

theorem exists_closeElement {name : Text} {names : List Text} (open_ : p.names = name :: names) :
    ∃ q, p.closeElement name = .ok q := by
  rw [Progress.names] at open_
  obtain ⟨frame, outer, frames, rfl, -⟩ := List.map_eq_cons_iff.mp open_
  exact ⟨_, closeElement_eq frames⟩

theorem passes_finish {name : Text} (closes : p.finish name = .ok q) :
    p.Passes (if p.settled.elem name then [] else [.finish name]) q ∧
      q.settled = p.settled.erase name := by
  unfold finish at closes
  split at closes
  · next counts =>
    obtain rfl := Except.ok.inj closes
    rw [if_pos counts]
    exact ⟨⟨rfl, (List.append_nil _).symm⟩, rfl⟩
  · next counts =>
    obtain ⟨passes, settled⟩ := passes_closeElement closes
    rw [if_neg counts, List.erase_of_not_mem (by simpa using counts)]
    exact ⟨passes, settled⟩

theorem exists_finish {name : Text} {names : List Text}
    (tags : openAfter? p.names (if p.settled.elem name then [] else [.finish name]) = some names) :
    ∃ q, p.finish name = .ok q := by
  unfold finish
  split
  · exact ⟨_, rfl⟩
  · next counts =>
    rw [if_neg counts] at tags
    cases open_ : p.names with
    | nil => simp [open_, openAfter?] at tags
    | cons inner outer =>
      rw [open_, openAfter?] at tags
      split at tags
      · next same => exact exists_closeElement (same ▸ open_)
      · cases tags

/-- A token that is read leads on by its tags as they count. -/
theorem passes_step {token : Token} (read : p.step token = .ok q) :
    p.Passes (token.counted p.settled) q ∧ q.settled = token.settles p.settled := by
  cases token with
  | text t =>
    obtain rfl := Except.ok.inj read
    exact ⟨⟨rfl, (List.append_nil _).symm⟩, rfl⟩
  | start name attributes closed =>
    simp only [step, closeElement_openElement, Except.map] at read
    simp only [Token.counted, Token.tags]
    cases closed with
    | true =>
      obtain rfl := Except.ok.inj read
      exact ⟨passes_empty name attributes _, rfl⟩
    | false =>
      simp only [Bool.false_eq_true, if_false, Bool.false_or] at read ⊢
      simp only [Token.settles]
      split at read
      · next closing =>
        obtain rfl := Except.ok.inj read
        rw [if_pos closing, if_pos closing]
        exact ⟨passes_empty name attributes _, rfl⟩
      · next stays =>
        obtain rfl := Except.ok.inj read
        rw [if_neg stays, if_neg stays]
        exact ⟨passes_openElement name attributes, by rw [openElement_eq]⟩
  | finish name => exact passes_finish read
  | comment t =>
    obtain rfl := Except.ok.inj read
    exact ⟨passes_add .comment t fun _ => rfl, by rw [add_eq]; rfl⟩
  | doctype t =>
    obtain rfl := Except.ok.inj read
    exact ⟨passes_add .doctype t fun _ => rfl, by rw [add_eq]; rfl⟩
  | instruction t =>
    obtain rfl := Except.ok.inj read
    exact ⟨passes_add .instruction t fun _ => rfl, by rw [add_eq]; rfl⟩
  | marked t =>
    obtain rfl := Except.ok.inj read
    unfold addMarked
    split
    · exact ⟨passes_add .data _ fun _ => rfl, by rw [add_eq]; rfl⟩
    · exact ⟨passes_add .declaration t fun _ => rfl, by rw [add_eq]; rfl⟩
  | rejected reason => cases read

/-- A token is read when its tags, as they count, fit what is open. -/
theorem exists_step {token : Token} (readable : ∀ reason, token ≠ .rejected reason)
    {names : List Text} (tags : openAfter? p.names (token.counted p.settled) = some names) :
    ∃ q, p.step token = .ok q := by
  cases token with
  | start name attributes closed =>
    simp only [step, closeElement_openElement, Except.map]
    split
    · exact ⟨_, rfl⟩
    · split <;> exact ⟨_, rfl⟩
  | finish name => exact exists_finish tags
  | rejected reason => exact absurd rfl (readable reason)
  | _ => exact ⟨_, rfl⟩

/-- Reading ends well when no element is open, with the nodes of what has been read. -/
theorem complete_eq_ok_iff {nodes : List Node} :
    p.complete = .ok nodes ↔ p.names = [] ∧ nodes = (p.pendingNodes ++ p.nodes).reverse := by
  rw [complete, flush_eq, Progress.names]
  cases open_ : p.frames with
  | nil => simp [eq_comm]
  | cons frame outer => simp [List.getLast?_cons]

end Progress

/-! ## What all tokens do -/

/-- Tokens are read as nodes with the tags of the tokens as they count, which close what is open. -/
theorem tags_of_readFrom {p : Progress} {ts : List Token} {nodes : List Node}
    (read : readFrom p ts = .ok nodes) :
    openAfter? p.names (countedTags p.settled ts) = some [] ∧
      tagsAll nodes = p.tags ++ countedTags p.settled ts := by
  induction ts generalizing p with
  | nil =>
    obtain ⟨none, rfl⟩ := Progress.complete_eq_ok_iff.mp read
    have frames : p.frames = [] := List.map_eq_nil_iff.mp none
    rw [p.tagsAll_flushed, none, Progress.tags, frames]
    exact ⟨rfl, (List.append_nil _).symm⟩
  | cons token rest ih =>
    rw [readFrom] at read
    obtain ⟨q, step, read⟩ := exists_of_bind_eq_ok read
    obtain ⟨passes, settled⟩ := Progress.passes_step step
    obtain ⟨names, tags⟩ := ih read
    rw [settled] at names tags
    rw [countedTags, openAfter?_append, passes.names, tags, passes.tags]
    exact ⟨names, List.append_assoc ..⟩

/-- Tokens whose tags, as they count, close what is open are read. -/
theorem exists_readFrom {p : Progress} {ts : List Token}
    (readable : ∀ reason, Token.rejected reason ∉ ts)
    (tags : openAfter? p.names (countedTags p.settled ts) = some []) :
    ∃ nodes, readFrom p ts = .ok nodes := by
  induction ts generalizing p with
  | nil => exact ⟨_, Progress.complete_eq_ok_iff.mpr ⟨Option.some.inj tags, rfl⟩⟩
  | cons token rest ih =>
    simp only [List.mem_cons, not_or] at readable
    rw [countedTags, openAfter?_append] at tags
    obtain ⟨names, here, later⟩ := Option.bind_eq_some_iff.mp tags
    obtain ⟨q, step⟩ := Progress.exists_step (fun reason => Ne.symm (readable reason).1) here
    obtain ⟨passes, settled⟩ := Progress.passes_step step
    rw [readFrom_of_step step]
    refine ih (fun reason => (readable reason).2) ?_
    rw [settled, ← later]
    congr 1
    exact Option.some.inj (passes.names.symm.trans here)

/-! ## Texts that are read -/

/-- A text without unreadable sections is read exactly when its tags balance as they count, and the
tags of its nodes are then these tags. -/
theorem exists_read_iff_counted {t : Text} (readable : ∀ reason, Token.rejected reason ∉ tokens t) :
    ((∃ nodes, read t = .ok nodes) ↔ Balanced (countedTags [] (tokens t))) ∧
      ∀ nodes, read t = .ok nodes → tagsAll nodes = countedTags [] (tokens t) := by
  refine ⟨⟨?_, fun balanced => exists_readFrom readable (balanced_iff.mp balanced)⟩,
    fun nodes read => (tags_of_readFrom read).2⟩
  rintro ⟨nodes, read⟩
  exact balanced_iff.mpr (tags_of_readFrom read).1

/-- Whether no element that closes itself has an end tag. -/
def Endless (ts : List Token) : Prop := ∀ name ∈ selfClosingElements, .finish name ∉ ts

/-- Without end tags of elements that close themselves, all tags count. -/
theorem countedTags_eq {settled : List Text} {ts : List Token} (endless : Endless ts)
    (calm : ∀ name ∈ settled, name ∈ selfClosingElements) :
    countedTags settled ts = ts.flatMap Token.tags := by
  induction ts generalizing settled with
  | nil => rfl
  | cons token rest ih =>
    have later : Endless rest := fun name closing member =>
      endless name closing (List.mem_cons_of_mem token member)
    rw [countedTags, List.flatMap_cons]
    cases token with
    | start name attributes closed =>
      refine congrArg (_ ++ ·) (ih later ?_)
      cases closed with
      | true => exact calm
      | false =>
        simp only [Token.settles]
        split
        · next closing => exact List.forall_mem_cons.mpr ⟨List.elem_iff.mp closing, calm⟩
        · exact calm
    | finish name =>
      have fresh : name ∉ settled := fun member =>
        endless name (calm name member) List.mem_cons_self
      simp only [Token.counted, Token.settles, Token.tags, List.elem_eq_mem, fresh, decide_false,
        Bool.false_eq_true, if_false, List.erase_of_not_mem fresh]
      rw [ih later calm]
    | _ => exact congrArg (_ ++ ·) (ih later calm)

/-- A text without unreadable sections and without end tags of elements that close themselves is read
exactly when its tags balance, where an element that closes itself is complete with a slash or
without, and every other element with a slash; the tags of its nodes are then those of the text. -/
theorem exists_read_iff {t : Text} (readable : ∀ reason, Token.rejected reason ∉ tokens t)
    (endless : Endless (tokens t)) :
    ((∃ nodes, read t = .ok nodes) ↔ Balanced ((tokens t).flatMap Token.tags)) ∧
      ∀ nodes, read t = .ok nodes → tagsAll nodes = (tokens t).flatMap Token.tags := by
  have counted := exists_read_iff_counted readable
  rwa [countedTags_eq endless (by simp)] at counted

/-- Line breaks with a slash and without, and another element with a slash. -/
def mixedBreaks : Text := "<p>a<br>b<br/><i/><br></p>"

theorem exists_read_iff_mixedBreaks : (∀ reason, Token.rejected reason ∉ tokens mixedBreaks) ∧
    Endless (tokens mixedBreaks) ∧
    ∃ nodes, read mixedBreaks = .ok nodes ∧ tagsAll nodes =
      [.start "p" [], .start "br" [], .finish "br", .start "br" [], .finish "br", .start "i" [],
        .finish "i", .start "br" [], .finish "br", .finish "p"] := by
  have same : tokens mixedBreaks = [.start "p" [] false, .text "a", .start "br" [] false, .text "b",
      .start "br" [] true, .start "i" [] true, .start "br" [] false, .finish "p"] := by
    decide +kernel
  have readable : ∀ reason, Token.rejected reason ∉ tokens mixedBreaks := by simp [same]
  have endless : Endless (tokens mixedBreaks) := by
    intro name closing member
    simp only [same, List.mem_cons, List.not_mem_nil, reduceCtorEq, Token.finish.injEq, or_false,
      false_or] at member
    subst member
    exact absurd closing (by decide)
  obtain ⟨accepts, tags⟩ := exists_read_iff readable endless
  obtain ⟨nodes, read⟩ := accepts.mpr (balanced_iff.mpr (by rw [same]; decide))
  refine ⟨readable, endless, nodes, read, ?_⟩
  rw [tags nodes read, same]
  decide

end StaticSite.Markup
