import StaticSite.Proofs.Markup.Gathering
import StaticSite.Proofs.Markup.Tokens
import StaticSite.Proofs.Result

/-! # Nodes that have been read

What reading makes of any text is `Sound`: names are in lower case, no content holds an ending of
its own, texts are not empty and not neighbours, and where white space does not count no text is
blank but a newline or a space. Each step of the reader keeps what has been read sound.
-/

namespace StaticSite.Markup

/-- Content of an element with raw content: one text without an end tag, or nothing. -/
def RawChildren (name : Text) (children : List Node) : Prop :=
  ∃ content, RawContent name content ∧
    children = if content.isEmpty then [] else [.text content]

mutual

/-- Whether a node is one that can be read where white space counts or where it does not. -/
def Node.Sound (verbatim : Bool) : Node → Prop
  | .text t => t ≠ [] ∧ textIn verbatim t = t
  | .comment t => CommentContent t ∧ textIn verbatim t = t
  | .doctype t | .instruction t => '>' ∉ t ∧ textIn verbatim t = t
  | .data t => DataContent t ∧ textIn verbatim t = t
  | .declaration _ => True
  | .element name attributes children =>
      (SoundName name ∧ SoundAttributes attributes) ∧ Apart children ∧
        ((name ∈ rawElements → RawChildren name children) ∧
          (name ∈ selfClosingElements → children = [])) ∧
            SoundAll (verbatimElements.elem name || verbatim) children

/-- Whether all nodes are ones that can be read. -/
def SoundAll (verbatim : Bool) : List Node → Prop
  | [] => True
  | node :: rest => node.Sound verbatim ∧ SoundAll verbatim rest

end

theorem soundAll_iff {verbatim : Bool} {ns : List Node} :
    SoundAll verbatim ns ↔ ∀ n ∈ ns, n.Sound verbatim := by
  induction ns with
  | nil => simp [SoundAll]
  | cons n rest ih => simp [SoundAll, ih]

theorem soundAll_reverse {verbatim : Bool} {ns : List Node} :
    SoundAll verbatim ns.reverse ↔ SoundAll verbatim ns := by
  simp [soundAll_iff]

theorem apart_reverse {ns : List Node} : Apart ns.reverse ↔ Apart ns := by
  unfold Apart
  rw [List.isChain_reverse]
  simp only [and_comm]

theorem textIn_cases (verbatim : Bool) (t : Text) :
    textIn verbatim t = t ∨ textIn verbatim t = ['\n'] ∨ textIn verbatim t = [' '] := by
  unfold textIn
  split
  · split
    · exact .inr (.inl rfl)
    · exact .inr (.inr rfl)
  · exact .inl rfl

/-- A property of a text and of a blank holds of the text as it counts. -/
theorem textIn_induction {P : Text → Prop} (newline : P ['\n']) (space : P [' ']) {t : Text}
    (here : P t) (verbatim : Bool) : P (textIn verbatim t) := by
  rcases textIn_cases verbatim t with same | same | same <;> rw [same] <;> assumption

theorem rawContent_of_not_mem {name t : Text} (inside : '<' ∉ t) : RawContent name t := by
  induction t with
  | nil => rfl
  | cons c rest ih =>
    simp only [List.mem_cons, not_or] at inside
    rw [RawContent, run_outside_cons, restart_of_ne (Ne.symm inside.1)]
    exact ih inside.2

/-- An element with raw content is sound. -/
theorem sound_rawElement {name : Text} (raw : name ∈ rawElements) {attributes : Attributes}
    (named : SoundName name) (ordered : SoundAttributes attributes) {t : Text}
    (quiet : RawContent name t) (verbatim : Bool) :
    (Node.element name attributes
      (if t.isEmpty then [] else [.text (textIn verbatim t)])).Sound verbatim := by
  have notClosing : name ∉ selfClosingElements := by
    simpa using (notVerbatim_of_mem_rawElements raw).2
  have content : RawContent name (textIn verbatim t) :=
    textIn_induction (rawContent_of_not_mem (by decide)) (rawContent_of_not_mem (by decide)) quiet _
  by_cases empty : t = []
  · subst empty
    exact ⟨⟨named, ordered⟩, .nil, ⟨fun _ => ⟨[], rfl, rfl⟩, fun _ => rfl⟩, trivial⟩
  · have some : textIn verbatim t ≠ [] :=
      textIn_induction (P := (· ≠ [])) (by simp) (by simp) empty verbatim
    rw [if_neg (by simpa using empty)]
    refine ⟨⟨named, ordered⟩, .singleton _, ⟨fun _ => ⟨_, content, ?_⟩,
      fun closing => absurd closing notClosing⟩, ⟨some, ?_⟩, trivial⟩
    · rw [if_neg (by simpa using some)]
    · rw [(notVerbatim_of_mem_rawElements raw).1, Bool.false_or, textIn_textIn]

theorem dataContent_of_not_mem {t : Text} (inside : ']' ∉ t) : DataContent t := by
  intro s some within
  obtain ⟨c, rest, rfl⟩ := List.exists_cons_of_ne_nil some
  have other : c ≠ ']' := by
    rintro rfl
    exact inside (within.mem List.mem_cons_self)
  rw [bracketsEnd?_cons, if_neg other]

/-! ## What has been read so far -/

/-- Whether white space counts inside frames. -/
def countsIn (frames : List Frame) : Bool := frames.any fun frame => verbatimElements.elem frame.name

theorem Progress.isVerbatim_eq (p : Progress) : p.isVerbatim = countsIn p.frames := rfl

/-- Frames around sound nodes, none of them of an element with raw content or of one that closes
itself. -/
def SoundFrames : List Frame → Prop
  | [] => True
  | frame :: rest => (SoundName frame.name ∧ SoundAttributes frame.attributes) ∧
      (frame.name ∉ rawElements ∧ frame.name ∉ selfClosingElements) ∧
        (Apart frame.before ∧ SoundAll (countsIn rest) frame.before) ∧ SoundFrames rest

/-- What has been read so far is sound: its frames, and its nodes up to the text that is pending. -/
structure Progress.Sound (p : Progress) : Prop where
  frames : SoundFrames p.frames
  nodes : SoundAll p.isVerbatim p.nodes
  apart : Apart p.nodes
  head : ∀ n ∈ p.nodes.head?, n.isText = false
  calm : p.Calm

namespace Progress.Sound

theorem start : Progress.start.Sound :=
  ⟨trivial, trivial, .nil, by simp [Progress.start], .of_nil rfl⟩

variable {p : Progress} (sound : p.Sound)
include sound

/-- Pending text makes a sound node. -/
theorem flushed : Apart (p.pendingNodes ++ p.nodes) ∧ SoundAll p.isVerbatim (p.pendingNodes ++ p.nodes) := by
  unfold Progress.pendingNodes
  split
  · exact ⟨sound.apart, sound.nodes⟩
  · next some =>
    refine ⟨List.isChain_cons.mpr ⟨fun n first both => ?_, sound.apart⟩, ⟨?_, ?_⟩, sound.nodes⟩
    · rw [sound.head n first] at both
      exact Bool.false_ne_true both.2
    · exact textIn_induction (P := (· ≠ [])) (by simp) (by simp) (by simpa using some) _
    · exact textIn_textIn _ _

theorem put {n : Node} (other : n.isText = false) (here : n.Sound p.isVerbatim) : (p.put n).Sound := by
  obtain ⟨apart, nodes⟩ := sound.flushed
  rw [Progress.put_of_isText other]
  refine ⟨sound.frames, ⟨here, nodes⟩, List.isChain_cons.mpr ⟨fun m _ both => ?_, apart⟩,
    fun m first => ?_, sound.calm⟩
  · rw [other] at both
    exact Bool.false_ne_true both.1
  · obtain rfl : n = m := by simpa using first
    exact other

theorem push (t : Text) : (p.push t).Sound :=
  ⟨sound.frames, sound.nodes, sound.apart, sound.head, sound.calm⟩

theorem openElement {name : Text} {attributes : Attributes} (named : SoundName name)
    (ordered : SoundAttributes attributes) (notRaw : name ∉ rawElements)
    (notClosing : name ∉ selfClosingElements) : (p.openElement name attributes).Sound := by
  obtain ⟨apart, nodes⟩ := sound.flushed
  rw [Progress.openElement_eq]
  exact ⟨⟨⟨named, ordered⟩, ⟨notRaw, notClosing⟩, ⟨apart, nodes⟩, sound.frames⟩, trivial, .nil,
    by simp, sound.calm⟩

/-- An element without content is sound. -/
theorem put_empty {name : Text} {attributes : Attributes} (named : SoundName name)
    (ordered : SoundAttributes attributes) : (p.put (.element name attributes [])).Sound :=
  sound.put rfl ⟨⟨named, ordered⟩, .nil, ⟨fun _ => ⟨[], rfl, rfl⟩, fun _ => rfl⟩, trivial⟩

theorem closeElement {name : Text} {q : Progress} (closes : p.closeElement name = .ok q) : q.Sound := by
  obtain ⟨apart, nodes⟩ := sound.flushed
  have frames := sound.frames
  cases open_ : p.frames with
  | nil =>
    rw [Progress.closeElement, Progress.flush_eq, open_] at closes
    cases closes
  | cons frame outer =>
    rw [open_] at frames
    obtain ⟨⟨named, ordered⟩, ⟨notRaw, notClosing⟩, ⟨above, before⟩, others⟩ := frames
    obtain ⟨inner, attributes, behind⟩ := frame
    by_cases same : inner = name
    · subst same
      rw [Progress.closeElement_eq open_] at closes
      obtain rfl := Except.ok.inj closes
      have counts : p.isVerbatim = (verbatimElements.elem inner || countsIn outer) := by
        rw [Progress.isVerbatim_eq, open_]
        rfl
      refine ⟨others, ⟨⟨⟨named, ordered⟩, apart_reverse.mpr apart, ⟨fun raw => absurd raw notRaw,
        fun closing => absurd closing notClosing⟩, ?_⟩, before⟩,
        List.isChain_cons.mpr ⟨fun m _ both => Bool.false_ne_true both.1, above⟩,
        fun m first => ?_, sound.calm⟩
      · rw [counts] at nodes
        exact soundAll_reverse.mpr nodes
      · obtain rfl := Option.some.inj first
        rfl
    · rw [Progress.closeElement, Progress.flush_eq, open_] at closes
      simp [same] at closes

theorem finish {name : Text} {q : Progress} (closes : p.finish name = .ok q) : q.Sound := by
  unfold Progress.finish at closes
  split at closes
  · obtain rfl := Except.ok.inj closes
    exact ⟨sound.frames, sound.nodes, sound.apart, sound.head,
      fun other member => sound.calm other (List.mem_of_mem_erase member)⟩
  · exact sound.closeElement closes

theorem add {node : Text → Node} (other : ∀ t, (node t).isText = false) {content : Text}
    (here : (node (textIn p.isVerbatim content)).Sound p.isVerbatim) : (p.add node content).Sound := by
  have put := sound.put (other _) here
  rwa [Progress.put_of_isText (other _), ← Progress.textHere_eq, ← Progress.add_eq] at put

/-- Every token that opens no raw content keeps what has been read sound. -/
theorem step {token : Token} (whole : token.Sound) (plain : token.opensRaw = false) {q : Progress}
    (step : p.step token = .ok q) : q.Sound := by
  cases token with
  | text t =>
    obtain rfl := Except.ok.inj step
    exact sound.push t
  | start name attributes closed =>
    obtain ⟨named, ordered⟩ := whole
    have empty := sound.put_empty named ordered
    simp only [Progress.step, Progress.closeElement_openElement] at step
    split at step
    · obtain rfl := Except.ok.inj step
      exact empty
    · next slashless =>
      split at step
      · next closing =>
        obtain rfl := Except.ok.inj step
        exact ⟨empty.frames, empty.nodes, empty.apart, empty.head,
          List.forall_mem_cons.mpr ⟨List.elem_iff.mp closing, sound.calm⟩⟩
      · next stays =>
        obtain rfl := Except.ok.inj step
        exact sound.openElement named ordered (by simpa [Token.opensRaw, slashless] using plain)
          (by simpa using stays)
  | finish name => exact sound.finish step
  | comment t =>
    obtain rfl := Except.ok.inj step
    exact sound.add (fun _ => rfl)
      ⟨textIn_induction (P := CommentContent) (commentContent_of_not_mem (by decide))
        (commentContent_of_not_mem (by decide)) whole _, textIn_textIn _ _⟩
  | doctype t =>
    obtain rfl := Except.ok.inj step
    exact sound.add (fun _ => rfl)
      ⟨textIn_induction (P := ('>' ∉ ·)) (by decide) (by decide) whole _, textIn_textIn _ _⟩
  | instruction t =>
    obtain rfl := Except.ok.inj step
    exact sound.add (fun _ => rfl)
      ⟨textIn_induction (P := ('>' ∉ ·)) (by decide) (by decide) whole _, textIn_textIn _ _⟩
  | marked t =>
    obtain rfl := Except.ok.inj step
    unfold Progress.addMarked
    split
    · have inside : DataContent (t.drop 6) := fun s some within =>
        whole s some (within.trans (List.drop_suffix 6 t))
      exact sound.add (fun _ => rfl)
        ⟨textIn_induction (P := DataContent) (dataContent_of_not_mem (by decide))
          (dataContent_of_not_mem (by decide)) inside _, textIn_textIn _ _⟩
    · exact sound.add (fun _ => rfl) trivial
  | rejected reason => cases step

end Progress.Sound

/-- Reading arranged tokens makes sound nodes. -/
theorem sound_readFrom {p : Progress} (sound : p.Sound) {ts : List Token} (arranged : Arranged ts)
    {nodes : List Node} (read : readFrom p ts = .ok nodes) : Apart nodes ∧ SoundAll false nodes := by
  induction arranged generalizing p with
  | nil =>
    obtain ⟨apart, flushed⟩ := sound.flushed
    rw [readFrom, Progress.complete, Progress.flush_eq] at read
    cases open_ : p.frames with
    | nil =>
      rw [open_] at read
      obtain rfl := Except.ok.inj read
      rw [Progress.isVerbatim_eq, open_] at flushed
      exact ⟨apart_reverse.mpr apart, soundAll_reverse.mpr flushed⟩
    | cons frame outer =>
      rw [open_] at read
      simp only [List.getLast?_cons] at read
      cases read
  | @cons token rest whole plain others ih =>
    rw [readFrom] at read
    obtain ⟨q, next, read⟩ := exists_of_bind_eq_ok read
    exact ih (sound.step whole plain next) read
  | raw member named ordered quiet others ih =>
    rw [readFrom_rawTokens member sound.calm] at read
    refine ih (sound.put rfl (sound_rawElement member named ordered quiet _)) read
  | @lost name attributes member =>
    have notClosing := (notVerbatim_of_mem_rawElements member).2
    have opens : p.step (.start name attributes false) = .ok (p.openElement name attributes) := by
      simp only [Progress.step, notClosing]
      rfl
    rw [readFrom_of_step opens, readFrom, Progress.complete, Progress.flush_eq,
      Progress.openElement_eq] at read
    simp only [List.getLast?_cons] at read
    cases read

/-- Every text is read as sound nodes. -/
theorem sound_read {t : Text} {nodes : List Node} (read : read t = .ok nodes) :
    Apart nodes ∧ SoundAll false nodes :=
  sound_readFrom .start (arranged_tokensFrom false 0 t) read

end StaticSite.Markup
