import Mosaic.Json.Printer
import Mosaic.Literal.Escape

/-!
# Escapes that JSON writes

The escapes of JSON are escapes of string literals as well, so that a text that is written as
a JSON string has the same value as the body of a literal.

* `unescape_cons`, `unescape_decoded`: one character or one escape of a body.
* `unescape_escaped`: the written form of a text.
-/

namespace Mosaic.Literal

open Json (escapeChar hexDigit)

/-! ## One step -/

theorem unescape_cons {c : Char} (hc : c ≠ '\\') (rest : List Char) :
    unescape (c :: rest) = c :: unescape rest := by
  rw [unescape, if_neg hc]

/-- An escape that stands for a character. -/
theorem unescape_decoded {rest after : List Char} {decoded : Char}
    (h : decodeEscape rest = (some decoded, after)) :
    unescape ('\\' :: rest) = decoded :: unescape after := by
  rw [unescape, if_pos rfl, h]

/-! ## Written characters -/

/-- The code of a control character, as JSON writes it. -/
theorem hexNumber?_control : ∀ n < 32,
    hexNumber? ['0', '0', hexDigit (n / 16), hexDigit (n % 16)] = some n := by
  decide

theorem codeUnit_control {n : Nat} (hn : n < 32) (rest : List Char) :
    codeUnit ('0' :: '0' :: hexDigit (n / 16) :: hexDigit (n % 16) :: rest) =
      (Char.ofNat n, rest) := by
  have hcode : hexNumber? (('0' :: '0' :: hexDigit (n / 16) :: hexDigit (n % 16) :: rest).take 4) =
      some n := hexNumber?_control n hn
  have hhigh : Json.isHighSurrogate n = false := by
    rw [Json.isHighSurrogate, Bool.and_eq_false_iff, decide_eq_false_iff_not]
    left
    omega
  have hvalid : n.isValidChar := .inl (by omega)
  have hscalar : scalar? n = some (Char.ofNat n) := by
    rw [scalar?, dif_pos hvalid]
    exact congrArg some (dif_pos hvalid).symm
  rw [codeUnit, hcode]
  simp only [hhigh, Bool.false_eq_true, if_false, hscalar, Option.getD_some, List.drop_succ_cons,
    List.drop_zero]

/-- **The written form of a character** stands for the character. -/
theorem unescape_escapeChar (c : Char) (rest : List Char) :
    unescape (escapeChar c ++ rest) = c :: unescape rest := by
  unfold escapeChar
  split
  · next h => subst h; exact unescape_decoded rfl
  split
  · next h => subst h; exact unescape_decoded rfl
  split
  · next h => subst h; exact unescape_decoded rfl
  split
  · next h => subst h; exact unescape_decoded rfl
  split
  · next h => subst h; exact unescape_decoded rfl
  split
  · next h => subst h; exact unescape_decoded rfl
  split
  · next h => subst h; exact unescape_decoded rfl
  split
  · -- any other control character is written with its code
    next hcontrol =>
    have hdecode : decodeEscape
        ('u' :: '0' :: '0' :: hexDigit (c.toNat / 16) :: hexDigit (c.toNat % 16) :: rest) =
        (some (codeUnit _).1, (codeUnit _).2) := rfl
    rw [codeUnit_control hcontrol, Char.ofNat_toNat] at hdecode
    exact unescape_decoded hdecode
  · next hslash _ _ _ _ _ _ => exact unescape_cons hslash rest

/-- **The written form of a text**, between its quotes, stands for the text. -/
theorem unescape_escaped (chars : List Char) : unescape (chars.flatMap escapeChar) = chars := by
  induction chars with
  | nil => rw [List.flatMap_nil, unescape]
  | cons c chars ih => rw [List.flatMap_cons, unescape_escapeChar, ih]

end Mosaic.Literal
