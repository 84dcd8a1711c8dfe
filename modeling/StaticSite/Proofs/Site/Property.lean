import StaticSite.Proofs.Stylesheet.Composition
import StaticSite.Proofs.Text.LowerCase
import StaticSite.Site.Property

/-! # Names and values in style text

Writing a property name with dashes keeps it plain, and numbers are plain however they are written. A
declaration with a plain name and a value that stays in its block is a line of its own.
-/

namespace StaticSite

open Stylesheet

/-! ## Numbers -/

theorem plain_digits {t : Text} (digits : ∀ c ∈ t, c.isDigit = true) : Plain t :=
  fun c member => @isPlain_of_forall Char.isDigit (by decide) c (digits c member)

theorem plain_ofNat (n : Nat) : Plain (Text.ofNat n) :=
  plain_digits fun _ member => Nat.isDigit_of_mem_toDigits (by decide) (by decide) member

theorem plain_ofInt (n : Int) : Plain (Text.ofInt n) := by
  cases n with
  | ofNat n => exact plain_ofNat n
  | negSucc n => exact .append (s := ['-']) (by decide) (plain_ofNat (n + 1))

theorem plain_replicate (count : Nat) : Plain (List.replicate count '0') := by
  intro c member
  rw [List.eq_of_mem_replicate member]
  decide

namespace Number

theorem plain_positional {digits : Text} (plain : Plain digits) (point : Int) :
    Plain (positional digits point) := by
  unfold positional
  split
  · exact (Plain.append (by decide) (plain_replicate _)).append plain
  · have whole : Plain (digits.take point.toNat) := fun c member =>
      plain c (List.mem_of_mem_take member)
    have rest : Plain (digits.drop point.toNat) := fun c member =>
      plain c (List.mem_of_mem_drop member)
    refine ((whole.append (plain_replicate _)).append (by decide)).append ?_
    split
    · decide
    · exact rest

theorem plain_exponentText (exponent : Int) : Plain (exponentText exponent) := by
  unfold exponentText
  refine .append (s := [_]) ?_ ((plain_replicate _).append (plain_ofNat _))
  split <;> decide

theorem plain_scientific {digits : Text} (plain : Plain digits) (exponent : Int) :
    Plain (scientific digits exponent) := by
  unfold scientific
  refine (Plain.append ?_ (by decide)).append (plain_exponentText exponent)
  split
  · exact plain
  · next d rest _ =>
    obtain ⟨first, others⟩ := List.forall_mem_cons.mp plain
    exact List.forall_mem_cons.mpr ⟨first, List.forall_mem_cons.mpr ⟨by decide, others⟩⟩
  · exact plain

theorem plain_ofFloat (x : Float) : Plain (ofFloat x) := by
  unfold ofFloat
  cases Binary.ofFloat x with
  | nan => decide
  | infinite negative => cases negative <;> decide
  | finite negative mantissa exponent =>
    unfold ofBinary
    refine .append ?_ ?_
    · cases negative <;> decide
    · unfold ofDecimal
      split
      · decide
      · dsimp only
        split
        · exact plain_positional (plain_ofNat _) _
        · exact plain_scientific (plain_ofNat _) _

theorem plain_plainFloat (x : Float) : Plain (plainFloat x) := by
  unfold plainFloat
  split
  · exact plain_ofInt _
  · exact plain_ofFloat x

end Number

theorem Quantity.plain_styleText (q : Quantity) : Plain q.styleText := by
  cases q with
  | int n => exact plain_ofInt n
  | float x => exact Number.plain_plainFloat x

/-! ## Names -/

namespace Property

theorem mem_dashed {name : Text} {c : Char} (member : c ∈ dashed name) : c ∈ name ∨ c = '-' := by
  fun_induction dashed name with
  | case1 a b rest joint ih =>
    rw [List.mem_cons, List.mem_cons] at member
    rw [List.mem_cons]
    tauto
  | case2 a b rest joint ih =>
    rw [List.mem_cons] at member
    rw [List.mem_cons]
    tauto
  | case3 t => exact .inl member

theorem isPlain_of_isWord {c : Char} (word : Text.IsWord c) : isPlain c = true := by
  have letter : (97 ≤ c.toNat && c.toNat ≤ 122 || 128 ≤ c.toNat) = true := by
    simpa using word.1
  exact @isPlain_of_forall (fun c => 97 ≤ c.toNat && c.toNat ≤ 122 || 128 ≤ c.toNat)
    (by decide) c letter

theorem plain_timelineName {name : Text} (plain : Plain name) : Plain (timelineName name) := by
  intro c member
  obtain ⟨d, inside, made⟩ := List.mem_flatMap.mp member
  have here := plain d inside
  split at made
  · rcases List.mem_cons.mp made with rfl | last
    · decide
    · rw [List.mem_singleton.mp last]
      rcases Text.lowerChar_cases d with same | ⟨-, word⟩
      · rwa [same]
      · exact isPlain_of_isWord word
  · rwa [List.mem_singleton.mp made]

end Property

/-! ## Values -/

/-- Whether a value is a number or a text that stays in its block. -/
def Scalar.Fits : Scalar → Prop
  | .text s => Stylesheet.Fits s.toList
  | .number _ => True

/-- Whether raw data is a number or a text that stays in its block. -/
def Value.Fits : Value → Prop
  | .text s => Stylesheet.Fits s.toList
  | .int _ | .float _ => True
  | _ => False

instance : (s : Scalar) → Decidable s.Fits
  | .text s => inferInstanceAs (Decidable (Stylesheet.Fits s.toList))
  | .number _ => .isTrue trivial

instance : (v : Value) → Decidable v.Fits
  | .text s => inferInstanceAs (Decidable (Stylesheet.Fits s.toList))
  | .int _ | .float _ => .isTrue trivial
  | .null | .bool _ | .list _ | .table _ | .moment _ => .isFalse id

theorem Scalar.Fits.inline {s : Scalar} (fits : s.Fits) : Inline s.styleText := by
  cases s with
  | text s => exact Stylesheet.Fits.inline fits
  | number q => exact q.plain_styleText.inert.toInline

theorem Value.Fits.inline {v : Value} (fits : v.Fits) : Inline v.styleText := by
  cases v with
  | text s => exact Stylesheet.Fits.inline fits
  | int n => exact (plain_ofInt n).inert.toInline
  | float x => exact (Number.plain_plainFloat x).inert.toInline
  | _ => exact fits.elim

/-! ## Declarations -/

namespace Property.Declaration

theorem inline_text {d : Declaration} (name : Plain d.name) (value : Inline d.value) :
    Inline d.text :=
  .plain_append (name.append (by decide)) value

theorem standalone_line {indent : Text} (blank : Plain indent) {d : Declaration}
    (name : Plain d.name) (value : Inline d.value) : Standalone (d.line indent) :=
  (Inline.plain_append blank (inline_text name value)).standalone

end Property.Declaration

end StaticSite
