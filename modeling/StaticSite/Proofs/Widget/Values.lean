import Mathlib.Data.List.Nodup
import StaticSite.Proofs.Markup.Blocks
import StaticSite.Proofs.Widget.Element

/-! # Values of attributes

A value is written twice on its way into a page: by the widget it belongs to, and by the layout of
the page. Each way of writing has references of its own for what is special in a value, and reading
undoes both. So a tag with any values is read as this one tag, with these values and no others,
wherever it stands and however it is laid out.
-/

namespace StaticSite.Widget

open Markup
open Stylesheet (written page_eq_written)

/-! ## One value -/

/-- What a widget writes for a value is read as the value, and does not end before its quote. -/
theorem attributeText_value (name : String) (v : Text) : ∃ body,
    attributeText (name, some v) = name ++ "=\"" ++ body ++ "\"" ∧ '"' ∉ body ∧ resolve body = v :=
  ⟨Text.escapeAttribute v, rfl, not_mem_escapeAttribute (by decide) v,
    resolve_replaceEach resolves_attributeReference v⟩

/-- What the layout writes for a value is read as the value, and does not end before its quote. -/
theorem layoutText_value (name : Text) {v : Text} (some : v ≠ []) : ∃ quote body,
    isQuote quote = true ∧ Markup.attributeText name v = name ++ "=" ++ (quote :: body ++ [quote]) ∧
      quote ∉ body ∧ resolve body = v := by
  obtain ⟨opens, inside⟩ := quotedParts_sound v
  refine ⟨(quotedParts v).1, (quotedParts v).2, opens, ?_, inside, resolve_quotedParts v⟩
  rw [Markup.attributeText, if_neg (mt List.isEmpty_iff.mp some), quotedAttribute_eq]

theorem appendToLast_startLines (style : Style) (depth : Nat) (name : Text)
    (attributes : Attributes) (ending : Text) :
    appendToLast [] (startLines style depth name attributes ending) =
      startLines style depth name attributes ending :=
  appendToLast_nil (startLines_ne_nil style depth name attributes ending)

/-! ## Tags with any values -/

/-- The names of attributes with the values that they stand for: an empty one where there is only
the name. -/
def pairs (as : List Attribute) : Attributes := as.map fun a => (a.1.toList, a.2.getD [])

/-- A tag that a widget can write, with `slash` where its element is complete at once: the element
has no raw content, and the names of the attributes differ and are names in lower case. -/
structure Tagged (tag : String) (as : List Attribute) (slash : Bool) : Prop where
  name : ElementName tag
  notRaw : rawElements.elem tag.toList = false
  void : voidElements.elem tag.toList = slash
  closing : selfClosingElements.elem tag.toList = slash
  some : as ≠ []
  distinct : (as.map (·.1)).Nodup
  named : ∀ a ∈ as, a.1.toList ≠ [] ∧ (∀ c ∈ a.1.toList, isAttributeChar c = true) ∧
    Text.lower a.1.toList = a.1.toList

/-- The tags that widgets write have any values. -/
theorem tagged_of_mem {tag : String} {slash : Bool}
    (known : tag ∈ if slash then emptyTags else contentTags) {as : List Attribute} (some : as ≠ [])
    (distinct : (as.map (·.1)).Nodup) (named : ∀ a ∈ as, a.1 ∈ "class" :: "id" :: attributeNames) :
    Tagged tag as slash := by
  have listed : tag ∈ contentTags ++ emptyTags := by
    cases slash with
    | false => exact List.mem_append_left _ known
    | true => exact List.mem_append_right _ known
  have classes : rawElements.elem tag.toList = false ∧ voidElements.elem tag.toList = slash ∧
      selfClosingElements.elem tag.toList = slash := by
    revert tag
    cases slash <;> decide
  exact ⟨elementName_of_mem listed, classes.1, classes.2.1, classes.2.2, some, distinct,
    fun a member => ⟨(chars_of_named (named a member)).1, (chars_of_named (named a member)).2,
      lower_of_named (named a member)⟩⟩

/-- The tag of a component's own element has any class names, any id and any other values. -/
theorem tagged_own (c : Component) {tag : String} {slash : Bool}
    (known : tag ∈ if slash then emptyTags else contentTags) (classes : List String)
    {as : List Attribute} (named : ∀ a ∈ as, a.1 ∈ attributeNames)
    (distinct : ((animationFlags c ++ as).map (·.1)).Nodup) :
    Tagged tag (ownAttributes c classes as) slash := by
  have other : ∀ name ∈ (animationFlags c ++ as).map (·.1), name ∈ attributeNames :=
    List.forall_mem_map.mpr fun a member =>
      (List.mem_append.mp member).elim (names_animationFlags c a) (named a)
  have names : (ownAttributes c classes as).map (·.1) =
      "class" :: "id" :: (animationFlags c ++ as).map (·.1) := by simp [ownAttributes, attr]
  refine tagged_of_mem known (by simp [ownAttributes]) ?_ (names_ownAttributes c classes named)
  rw [names, List.nodup_cons, List.nodup_cons]
  refine ⟨fun member => ?_, fun member => ?_, distinct⟩
  · rcases List.mem_cons.mp member with same | member
    · exact absurd same (by decide)
    · exact absurd (other _ member) (by decide)
  · exact absurd (other _ member) (by decide)

/-- The tag as a widget writes it. -/
def tagOf (tag : String) (as : List Attribute) (slash : Bool) : Text :=
  "<" ++ tag ++ " " ++ attributesText as ++ tagEnding slash

/-- An element without content, as a widget writes it. -/
def emptyElement (tag : String) (as : List Attribute) (slash : Bool) : Text :=
  tagOf tag as slash ++ if slash then [] else Markup.endTag tag.toList

theorem voidTag_eq_tagOf (c : Component) (tag : String) (as : List Attribute) :
    voidTag c tag as = tagOf tag (ownAttributes c [] as) true := rfl

namespace Tagged

variable {tag : String} {as : List Attribute} {slash : Bool} (tagged : Tagged tag as slash)
include tagged

theorem soundAttributes : SoundAttributes (pairs as) where
  distinct := by
    have keys : Fields.keys (pairs as) = (as.map (·.1)).map String.toList := by
      simp [Fields.keys, pairs, Function.comp_def]
    rw [keys]
    exact tagged.distinct.map fun _ _ same => String.toList_inj.mp same
  named := List.forall_mem_map.mpr fun a member => by
    obtain ⟨some, chars, lower⟩ := tagged.named a member
    exact ⟨.of_chars some chars, lower⟩

/-- The attributes as a widget writes them. -/
theorem written : (∀ a ∈ as.map Attribute.tag, a.Sound) ∧
    TagAttribute.Separate (as.map Attribute.tag) ∧
    Fields.putAll [] ((as.map Attribute.tag).map TagAttribute.pair) = pairs as := by
  refine ⟨List.forall_mem_map.mpr fun a member => ?_, TagAttribute.separate_of_chars
    (List.forall_mem_map.mpr fun a member => (tagged.named a member).2.1), ?_⟩
  · obtain ⟨some, chars, -⟩ := tagged.named a member
    exact Attribute.sound_of_chars some chars
  · have same : (as.map Attribute.tag).map TagAttribute.pair = pairs as := by
      rw [List.map_map]
      exact List.map_congr_left fun a member => Attribute.pair_tag (tagged.named a member).2.2
    rw [same, Fields.putAll_of_nodup (by simpa using tagged.soundAttributes.distinct)]
    rfl

/-- The attributes as the layout writes them. -/
theorem laid : (∀ a ∈ (pairs as).map (attributeTag true), a.Sound) ∧
    TagAttribute.Separate ((pairs as).map (attributeTag true)) ∧
    Fields.putAll [] (((pairs as).map (attributeTag true)).map TagAttribute.pair) = pairs as := by
  refine ⟨tagged.soundAttributes.attributeTag true, TagAttribute.separate_of_chars ?_,
    tagged.soundAttributes.putAll_pair true⟩
  refine List.forall_mem_map.mpr (List.forall_mem_map.mpr fun a member => ?_)
  exact (tagged.named a member).2.1

theorem tagOf_eq : ∃ gap tail, Spacing gap tail ∧
    tagOf tag as slash = tagText tag.toList gap tail (as.map Attribute.tag) slash := by
  cases slash with
  | false => exact ⟨[' '], [], spacing_space, (openTag_eq tag tagged.some).symm⟩
  | true => exact ⟨[' '], [' '], spacing_slash, (slashTag_eq tag tagged.some).symm⟩

section Read

variable {gap tail : Text} (spacing : Spacing gap tail) {ts : List TagAttribute}
variable (sound : ∀ a ∈ ts, a.Sound) (separate : TagAttribute.Separate ts)
variable (same : Fields.putAll [] (ts.map TagAttribute.pair) = pairs as)
include spacing sound separate same

/-- Whoever writes the tag, it is read as one token, with the values. -/
theorem tokensFrom_tagText (late : Bool) (rest : Text) :
    tokensFrom late 0 (tagText tag.toList gap tail ts slash ++ rest) =
      .start tag.toList (pairs as) slash :: tokensFrom late 0 rest := by
  have read := Markup.tokensFrom_tagText tagged.name.toTagName late spacing sound separate slash
    (.inr (tagged.name.lower.symm ▸ tagged.notRaw)) rest
  rwa [tagged.name.lower, same] at read

/-- Whoever writes the element, it is put with the values. -/
theorem reads_tagText {p : Progress} (calm : p.Calm) :
    Reads (tagText tag.toList gap tail ts slash ++ if slash then [] else Markup.endTag tag.toList) p
      (p.put (.element tag.toList (pairs as) [])) := by
  cases slash with
  | false =>
    have notRaw := tagged.name.lower.symm ▸ tagged.notRaw
    have notClosing := tagged.name.lower.symm ▸ tagged.closing
    have start := reads_startTag tagged.name.toTagName spacing sound separate notRaw notClosing p
    rw [same, tagged.name.lower] at start
    have open_ : tag.toList ∉ (p.openElement tag.toList (pairs as)).settled := by
      rw [Progress.openElement_eq]
      exact calm.not_mem tagged.closing
    refine start.append (reads_endTag tagged.name.toTagName tagged.name.closable ?_)
    rw [tagged.name.lower, Progress.finish_eq open_, Progress.closeElement_openElement]
    rfl
  | true =>
    have whole := reads_slashTag tagged.name.toTagName spacing sound separate p
    rw [same, tagged.name.lower] at whole
    exact (List.append_nil (tagText ..)).symm ▸ whole

end Read

/-- The lines of the element are the element, behind the indentation. -/
theorem page_nodeLines (style : Style) (depth : Nat) : ∃ gap tail ls, Spacing gap tail ∧
    nodeLines style depth (.element tag.toList (pairs as) []) = .ok ls ∧
    Text.page ls = style.indent depth ++
      (tagText tag.toList gap tail ((pairs as).map (attributeTag true)) slash ++
        if slash then [] else Markup.endTag tag.toList) ++ ['\n'] := by
  obtain ⟨gap, tail, spacing, text⟩ := written_startLines style depth tag.toList (pairs as) slash
  refine ⟨gap, tail, appendToLast (if slash then [] else Markup.endTag tag.toList)
    (startLines style depth tag.toList (pairs as) (tagEnding slash)), spacing, ?_, ?_⟩
  · cases slash with
    | true =>
      simp only [nodeLines, tagged.void, if_true, tagEnding, appendToLast_startLines]
    | false =>
      have ends : tag.toList ∉ voidElements := by simpa using tagged.void
      have plain : tag.toList ∉ rawElements := by simpa using tagged.notRaw
      have content : (inlineAll []).trimSpaces = [] := rfl
      simp [nodeLines, ends, plain, verbatimAll, content, tagEnding]
  · rw [page_eq_written, text]

end Tagged

/-- An element with a newline behind it is what a page that reads so holds. -/
theorem read_of_reads {x : Text} {name : Text} {attributes : Attributes}
    (reads : Reads x .start (Progress.start.put (.element name attributes []))) :
    read x = .ok [.element name attributes []] ∧
      read (x ++ ['\n']) = .ok [.element name attributes [], .text ['\n']] := by
  have newline := reads.append (reads_plain (x := ['\n']) (by decide) _)
  have whole := reads false []
  have more := newline false []
  rw [List.append_nil] at whole more
  exact ⟨whole, more⟩

/-- Values survive both ways of writing them. What a widget writes for a value, and what the layout
writes for one that is not empty, is read as the value and does not hold the quote around it; an
empty value is written as the name alone. So a tag that a widget writes is read as this tag with
its values, whatever stands behind it, and so is the tag that the layout makes of it, on one line or
on several; and an element that is read, laid out and read again is the same element. -/
theorem values_survive :
    (∀ (name : String) (v : Text), ∃ body, attributeText (name, some v) =
      name ++ "=\"" ++ body ++ "\"" ∧ '"' ∉ body ∧ resolve body = v) ∧
    (∀ name : Text, Markup.attributeText name [] = name) ∧
    (∀ name v : Text, v ≠ [] → ∃ quote body, isQuote quote = true ∧
      Markup.attributeText name v = name ++ "=" ++ (quote :: body ++ [quote]) ∧ quote ∉ body ∧
      resolve body = v) ∧
    ∀ (tag : String) (as : List Attribute) (slash : Bool), Tagged tag as slash →
      (∀ late rest, tokensFrom late 0 (tagOf tag as slash ++ rest) =
        .start tag.toList (pairs as) slash :: tokensFrom late 0 rest) ∧
      (∀ style depth, ∃ written, Text.page
          (startLines style depth tag.toList (pairs as) (tagEnding slash)) =
            style.indent depth ++ written ++ ['\n'] ∧
        ∀ late rest, tokensFrom late 0 (written ++ rest) =
          .start tag.toList (pairs as) slash :: tokensFrom late 0 rest) ∧
      read (emptyElement tag as slash) = .ok [.element tag.toList (pairs as) []] ∧
      ∀ style, ∃ out, format style (emptyElement tag as slash) = .ok out ∧
        read out = .ok [.element tag.toList (pairs as) [], .text ['\n']] := by
  refine ⟨attributeText_value, fun name => rfl, fun name v => layoutText_value name,
    fun tag as slash tagged => ?_⟩
  obtain ⟨gap, tail, spacing, text⟩ := tagged.tagOf_eq
  obtain ⟨sound, separate, same⟩ := tagged.written
  obtain ⟨soundLaid, separateLaid, sameLaid⟩ := tagged.laid
  have nodes : read (emptyElement tag as slash) = .ok [.element tag.toList (pairs as) []] := by
    rw [emptyElement, text]
    exact (read_of_reads (tagged.reads_tagText spacing sound separate same (.of_nil rfl))).1
  refine ⟨fun late rest => ?_, fun style depth => ?_, nodes, fun style => ?_⟩
  · rw [text]
    exact tagged.tokensFrom_tagText spacing sound separate same late rest
  · obtain ⟨gap, tail, spacing, lines⟩ :=
      written_startLines style depth tag.toList (pairs as) slash
    refine ⟨_, ?_, fun late rest =>
      tagged.tokensFrom_tagText spacing soundLaid separateLaid sameLaid late rest⟩
    have line := lines []
    rwa [appendToLast_startLines, List.append_nil, ← page_eq_written] at line
  · obtain ⟨gap, tail, ls, spacing, laid, page⟩ := tagged.page_nodeLines style 0
    refine ⟨Text.page ls, ?_, ?_⟩
    · have alone : layoutLines style [.element tag.toList (pairs as) []] = .ok ls := by
        simp [layoutLines, showsBreaks, Node.isVisibleText, anyNeighbours, allLines, laid]
        rfl
      simp only [format, nodes]
      exact congrArg (Except.map Text.page) alone
    · rw [page]
      exact (read_of_reads (tagged.reads_tagText spacing soundLaid separateLaid sameLaid (.of_nil rfl))).2

/-- An image whose id would end its attribute and add another one. -/
def quoting : Component := { id := "a\" b='", type := "image" }

/-- What describes it: what looks like references, nothing, and only a name. -/
def described : List Attribute := [attr "src" "&amp;&quot", attr "alt" "", ("disabled", none)]

theorem values_survive_quoting :
    Tagged "img" (ownAttributes quoting [] described) true ∧
    voidTag quoting "img" described =
      "<img class=\"c-a&quot; b=&#x27;\" id=\"a&quot; b=&#x27;\" src=\"&amp;amp;&amp;quot\" " ++
        "alt=\"\" disabled />" ∧
    read (voidTag quoting "img" described) = .ok [.element "img" [("class", "c-a\" b='"),
      ("id", "a\" b='"), ("src", "&amp;&quot"), ("alt", []), ("disabled", [])] []] := by
  have tagged : Tagged "img" (ownAttributes quoting [] described) true :=
    tagged_own quoting (by decide) [] (by decide) (by decide)
  obtain ⟨-, -, -, survive⟩ := values_survive
  obtain ⟨-, -, nodes, -⟩ := survive "img" (ownAttributes quoting [] described) true tagged
  refine ⟨tagged, by decide +kernel, ?_⟩
  rw [emptyElement, if_pos rfl, List.append_nil, ← voidTag_eq_tagOf] at nodes
  exact nodes

end StaticSite.Widget
