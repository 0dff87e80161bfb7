import Mosaic.Proofs.Json.Limits
import Mosaic.Render.Interpreter
import Mosaic.Render.PlainText

/-!
# Compositions as text

A composition renders to the same tree whether it comes as a value or as the text of the
value. What is nested too deep to be read is refused as text only.

* `parse_written`, `parse_written_of_too_deep`: both written forms of a value, read.
* `render_text`: rendering a text and rendering what it spells.
-/

namespace Mosaic.Json

/-- A text that a value is written as: compact, or indented. -/
def IsWritten (value : Json) (text : String) : Prop := text = value.compact ∨ text = value.pretty

theorem IsWritten.exists_spacing {value : Json} {text : String} (h : IsWritten value text) :
    ∃ s : Spacing, text = String.ofList (s.spell 0 value) := by
  rcases h with rfl | rfl
  · exact ⟨.tight, by rw [Spacing.spell_tight, compact]⟩
  · exact ⟨.indented, by rw [Spacing.spell_indented, pretty]⟩

/-- What is written is read back. -/
theorem parse_written {value : Json} {text : String} (hvalue : Integral IsWord value)
    (htext : IsWritten value text) (hdepth : value.depth ≤ nestingLimit) :
    parse text = .ok value := by
  obtain ⟨s, rfl⟩ := htext.exists_spacing
  exact parse_spell hvalue hdepth s

/-- What is written but nested too deep is refused. -/
theorem parse_written_of_too_deep {value : Json} {text : String} (hvalue : Integral IsWord value)
    (htext : IsWritten value text) (hdepth : nestingLimit < value.depth) :
    ∃ position, parse text = .error ⟨.malformed .tooDeep, position⟩ := by
  obtain ⟨s, rfl⟩ := htext.exists_spacing
  exact parse_spell_of_too_deep hvalue hdepth s

end Mosaic.Json

namespace Mosaic.Render

open Json

/-- **Text renders like the value it spells**, up to 127 nested arrays and objects, and is
refused as malformed beyond that. -/
theorem render_text {α : Type} (r : Renderer α) {value : Json} {text : String}
    (hvalue : Integral IsWord value) (htext : IsWritten value text) :
    (value.depth ≤ 127 →
      r.render (.text text) = r.render (.value value) ∧
      r.render (.text text) = .ok (r.renderValue value)) ∧
    (127 < value.depth →
      ∃ position, r.render (.text text) = .error ⟨⟨.malformed .tooDeep, position⟩⟩) := by
  constructor
  · intro hdepth
    -- within the limit the text is read as the value that it was written for
    have hparse : parse text = .ok value := parse_written hvalue htext hdepth
    have hrender : r.render (.text text) = .ok (r.renderValue value) := by
      rw [Renderer.render, Input.value?, hparse]
      rfl
    exact ⟨hrender, hrender⟩
  · intro hdepth
    obtain ⟨position, hparse⟩ := parse_written_of_too_deep hvalue htext hdepth
    refine ⟨position, ?_⟩
    rw [Renderer.render, Input.value?, hparse]
    rfl

/-! ## A composition at the limits -/

/-- An album of arrays nested in each other. -/
def nestedAlbum : Nat → Json
  | 0 => .object [("type", .string "album \"\x01\t\\"), ("data", .array [
      .number (.int (-2 ^ 63)), .number (.int (2 ^ 64 - 1)), .null, .bool false])]
  | depth + 1 => .array [nestedAlbum depth]

theorem depth_nestedAlbum (d : Nat) : (nestedAlbum d).depth = d + 2 := by
  induction d with
  | zero => rfl
  | succ d ih => rw [nestedAlbum, depth, depthItems, depthItems, ih, Nat.max_zero]

theorem integral_nestedAlbum (d : Nat) : Integral IsWord (nestedAlbum d) := by
  induction d with
  | zero =>
    have hdata : Integral IsWord (.array [.number (.int (-2 ^ 63)), .number (.int (2 ^ 64 - 1)),
        .null, .bool false]) := by
      refine .array ?_
      simp only [List.forall_mem_cons]
      exact ⟨.number (by decide), .number (by decide), .null, .bool false, by simp⟩
    refine .object (by decide) ?_
    simp only [List.forall_mem_cons]
    exact ⟨.string _, hdata, by simp⟩
  | succ d ih =>
    refine .array ?_
    simp only [List.forall_mem_cons]
    exact ⟨ih, by simp⟩

/-- At the greatest depth that is read the album renders from its text, one level deeper it
does not. -/
theorem render_text_nestedAlbum :
    Integral IsWord (nestedAlbum 125) ∧ Integral IsWord (nestedAlbum 126) ∧
    IsWritten (nestedAlbum 125) (nestedAlbum 125).pretty ∧
    IsWritten (nestedAlbum 126) (nestedAlbum 126).compact ∧
    ({ units := plainText } : Renderer String).render (.text (nestedAlbum 125).pretty) =
      .ok (({ units := plainText } : Renderer String).renderValue (nestedAlbum 125)) ∧
    ∃ position, ({ units := plainText } : Renderer String).render
      (.text (nestedAlbum 126).compact) = .error ⟨⟨.malformed .tooDeep, position⟩⟩ := by
  have hfits : (nestedAlbum 125).depth ≤ 127 := Nat.le_of_eq (depth_nestedAlbum 125)
  have hexceeds : 127 < (nestedAlbum 126).depth := Nat.lt_of_lt_of_eq (by decide) (depth_nestedAlbum 126).symm
  exact ⟨integral_nestedAlbum 125, integral_nestedAlbum 126, .inr rfl, .inl rfl,
    ((render_text _ (integral_nestedAlbum 125) (.inr rfl)).1 hfits).2,
    (render_text _ (integral_nestedAlbum 126) (.inl rfl)).2 hexceeds⟩

end Mosaic.Render
