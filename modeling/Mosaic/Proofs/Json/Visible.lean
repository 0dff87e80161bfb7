import Mosaic.Proofs.Decimal.Numeral
import Mosaic.Proofs.Json.Spelling

/-!
# JSON without control characters

Line ends and other control characters are escaped in strings and keys, and nothing else in the
compact text of a value brings any. So it stands on one line, whatever the value holds.

* `IsVisible`: characters that are no control characters.
* `Spacing.forall_mem_elements`: of what the text of a container consists.
* `isVisible_of_mem_compactChars`: the compact text of any value.
-/

namespace Mosaic

namespace Decimal

/-- Numerals are made of digits and a few signs. -/
theorem IsNumeral.isDigit_or_mem {text : List Char} (h : IsNumeral text) :
    ∀ c ∈ text, c.isDigit = true ∨ c ∈ ['.', 'e', '+', '-'] := by
  obtain ⟨whole, fraction, exponent, rfl, hwhole, hfraction, hexponent⟩ := h
  intro c hc
  simp only [List.mem_append] at hc
  rcases hc with hc | hc | hc
  · -- the whole part has digits only
    left
    rcases hwhole with rfl | hproper
    · rw [List.mem_singleton.mp hc]
      rfl
    · exact hproper.areDigits.2 c hc
  · -- the fraction adds a point
    rcases hfraction with rfl | ⟨digits, rfl, hdigits⟩
    · cases hc
    · rcases List.mem_cons.mp hc with rfl | hc
      · exact .inr (by decide)
      · exact .inl (hdigits.2 c hc)
  · -- the exponent adds its letter and a sign
    rcases hexponent with rfl | ⟨sign, digits, rfl, hsign, hdigits⟩
    · cases hc
    · rcases List.mem_cons.mp hc with rfl | hc
      · exact .inr (by decide)
      · rcases List.mem_append.mp hc with hc | hc
        · right
          rcases hsign with rfl | rfl | rfl
          · cases hc
          · rw [List.mem_singleton.mp hc]
            decide
          · rw [List.mem_singleton.mp hc]
            decide
        · exact .inl (hdigits.2 c hc)

end Decimal

namespace Json

open Decimal

/-- A character that is no control character. -/
def IsVisible (c : Char) : Prop := 0x20 ≤ c.toNat

instance (c : Char) : Decidable (IsVisible c) := inferInstanceAs (Decidable (0x20 ≤ c.toNat))

/-! ## Scalars -/

theorem isVisible_of_mem_text {n : Number} : ∀ c ∈ n.text, IsVisible c := by
  obtain ⟨negative, numeral, hnumeral, htext⟩ := n.exists_numeral
  intro c hc
  rw [htext, List.mem_append] at hc
  rcases hc with hc | hc
  · have hminus : c = '-' := by
      cases negative with
      | true => exact List.mem_singleton.mp hc
      | false => cases hc
    rw [hminus]
    decide
  · rcases hnumeral.isDigit_or_mem c hc with hdigit | hsign
    · exact of_isDigit (by decide) hdigit
    · have hsigns : ∀ c ∈ ['.', 'e', '+', '-'], IsVisible c :=
        forall_mem_of_all (by decide)
      exact hsigns c hsign

theorem isVisible_hexDigit : ∀ n < 16, IsVisible (hexDigit n) := by decide

/-- Every control character is written as something else. -/
theorem isVisible_of_mem_escapeChar (c : Char) : ∀ d ∈ escapeChar c, IsVisible d := by
  unfold escapeChar
  -- seven characters have escapes of their own
  iterate 7
    split
    · exact forall_mem_of_all (by decide)
  split
  · next hcontrol => -- the code has four digits, the first two of which are zeros
    have hhigh : IsVisible (hexDigit (c.toNat / 16)) := isVisible_hexDigit _ (by omega)
    have hlow : IsVisible (hexDigit (c.toNat % 16)) := isVisible_hexDigit _ (by omega)
    have hplain : IsVisible '\\' ∧ IsVisible 'u' ∧ IsVisible '0' := by decide
    simp only [List.forall_mem_cons]
    exact ⟨hplain.1, hplain.2.1, hplain.2.2, hplain.2.2, hhigh, hlow, List.forall_mem_nil _⟩
  · next hcontrol =>
    intro d hd
    rw [List.mem_singleton.mp hd]
    show 0x20 ≤ c.toNat
    omega

theorem isVisible_of_mem_quote (text : String) : ∀ c ∈ quote text, IsVisible c := by
  have hquote : IsVisible '"' := by decide
  intro c hc
  rcases List.mem_cons.mp hc with rfl | hc
  · exact hquote
  rcases List.mem_append.mp hc with hc | hc
  · obtain ⟨d, -, hd⟩ := List.mem_flatMap.mp hc
    exact isVisible_of_mem_escapeChar d c hd
  · rw [List.mem_singleton.mp hc]
    exact hquote

/-! ## Containers -/

namespace Spacing

variable {s : Spacing} {β : Type} {p : Char → Prop} {level : Nat} {close : Char}
  {text : β → List Char}

/-- The text of a container consists of the texts of its elements, commas, the closing bracket and
the blanks between them. -/
theorem forall_mem_elements (hline : ∀ level, ∀ c ∈ s.line level, p c) (hcomma : p ',')
    (hclose : p close) {xs : List β} (htext : ∀ x ∈ xs, ∀ c ∈ text x, p c) :
    ∀ c ∈ s.elements level close text xs, p c := by
  have htail : ∀ ys : List β, (∀ y ∈ ys, ∀ c ∈ text y, p c) →
      ∀ c ∈ s.elementsTail level close text ys, p c := by
    intro ys hys
    induction ys with
    | nil =>
      rw [elementsTail, List.forall_mem_append]
      exact ⟨hline level, by simpa using hclose⟩
    | cons y rest ih =>
      rw [List.forall_mem_cons] at hys
      rw [elementsTail, List.forall_mem_cons, List.forall_mem_append, List.forall_mem_append]
      exact ⟨hcomma, hline (level + 1), hys.1, ih hys.2⟩
  cases xs with
  | nil => simpa [elements] using hclose
  | cons x rest =>
    rw [List.forall_mem_cons] at htext
    rw [elements, List.forall_mem_append, List.forall_mem_append]
    exact ⟨hline (level + 1), htext.1, htail rest htext.2⟩

end Spacing

open Spacing in
/-- **The compact text of a value** has no control characters, and so no line ends. -/
theorem isVisible_of_mem_compactChars (value : Json) : ∀ c ∈ value.compactChars, IsVisible c := by
  have htight : ∀ level, ∀ c ∈ tight.line level, IsVisible c := fun _ => List.forall_mem_nil _
  induction value using value_induction with
  | null => exact forall_mem_of_all (by decide)
  | bool b => cases b <;> exact forall_mem_of_all (by decide)
  | number n => exact isVisible_of_mem_text
  | string text => exact isVisible_of_mem_quote text
  | array items ih =>
    rw [compactChars, compactItems_eq 0, List.forall_mem_cons]
    exact ⟨by decide, forall_mem_elements htight (by decide) (by decide) ih⟩
  | object members ih =>
    rw [compactChars, compactMembers_eq 0, List.forall_mem_cons]
    refine ⟨by decide, forall_mem_elements htight (by decide) (by decide) ?_⟩
    intro member hmember
    -- the key, a colon and the value
    rw [Spacing.member, List.forall_mem_append, List.forall_mem_cons]
    exact ⟨isVisible_of_mem_quote member.1, by decide, ih member hmember⟩

end Json

end Mosaic
