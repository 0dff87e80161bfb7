import Mathlib.Data.Nat.Digits.Defs
import Mosaic.Literal.Escape
import Mosaic.Literal.Number
import Mosaic.Proofs.Decimal.Numeral

/-!
# Digits in either case

The digits beyond nine are letters, and may be small or capital. What a row of digits denotes
does not depend on the case: it is the sum of the digits, each times the power of the radix that
belongs to its place.

* `Digit`: a digit together with its case, and the character that writes it.
* `magnitude`: the number that a row of digits denotes.
* `hexNumber?_chars`: the digits of a code, which must fit into 32 bits.
* `readInteger?_chars`: the digits of an integer in small letters, which must fit into 64 bits.
-/

namespace Mosaic.Literal

/-- A digit of a radix, in either case. -/
structure Digit (radix : Nat) where
  value : Fin radix
  capital : Bool

variable {radix : Nat}

/-- The last hexadecimal digit of a number. -/
def Digit.hexadecimal (n : Nat) (capital : Bool) : Digit 16 :=
  ⟨⟨n % 16, Nat.mod_lt n (by decide)⟩, capital⟩

/-- The character of a digit in small letters. -/
def Digit.small (d : Digit radix) : Char := Nat.digitChar d.value

def Digit.char (d : Digit radix) : Char := if d.capital then d.small.toUpper else d.small

/-- The number that a row of digits denotes. The first digit counts most. -/
def magnitude (digits : List (Digit radix)) : Nat :=
  Nat.ofDigits radix (digits.map fun d => d.value.val).reverse

/-- One digit after the other is appended to the number so far. -/
theorem foldl_values (digits : List (Digit radix)) :
    (digits.map fun d => d.value.val).foldl (fun n d => radix * n + d) 0 = magnitude digits := by
  rw [magnitude, Nat.ofDigits_eq_foldr, List.foldr_reverse]
  simp only [Nat.cast_id, Nat.add_comm]

theorem magnitude_lt (hradix : 1 < radix) (digits : List (Digit radix)) :
    magnitude digits < radix ^ digits.length := by
  have hdigits : ∀ n ∈ (digits.map fun d => d.value.val).reverse, n < radix := by
    intro n hn
    simp only [List.mem_reverse, List.mem_map] at hn
    obtain ⟨d, -, rfl⟩ := hn
    exact d.value.isLt
  simpa [magnitude] using Nat.ofDigits_lt_base_pow_length hradix hdigits

/-- Reading character by character what each character gives. -/
theorem mapM_chars {char : Digit radix → Char} {read : Char → Option Nat}
    (h : ∀ d, read (char d) = some d.value.val) (digits : List (Digit radix)) :
    (digits.map char).mapM read = some (digits.map fun d => d.value.val) := by
  induction digits with
  | nil => rfl
  | cons d rest ih => simp [h, ih]

/-! ## Single digits -/

theorem char_ne {c : Char} (hc : ∀ d : Fin 16, d.val.digitChar ≠ c ∧ d.val.digitChar.toUpper ≠ c)
    (hradix : radix ≤ 16) (d : Digit radix) : d.char ≠ c := by
  have hboth := hc ⟨d.value.val, by omega⟩
  unfold Digit.char Digit.small
  split
  · exact hboth.2
  · exact hboth.1

/-- A letter in either case is the same digit in small letters. -/
theorem toLower_char (hradix : radix ≤ 16) (d : Digit radix) : d.char.toLower = d.small := by
  have hall : ∀ n < 16,
      n.digitChar.toUpper.toLower = n.digitChar ∧ n.digitChar.toLower = n.digitChar := by
    decide
  have hboth := hall d.value.val (by omega)
  unfold Digit.char Digit.small
  split
  · exact hboth.1
  · exact hboth.2

theorem digitValue?_small (hradix : radix ≤ 16) (d : Digit radix) :
    digitValue? radix d.small = some d.value.val := by
  have hall : ∀ n < 16, digitValue? 16 n.digitChar = some n := by decide
  have hvalue := hall d.value.val (by omega)
  -- the radix only bounds the digits
  unfold digitValue? at hvalue ⊢
  obtain ⟨hsome, -⟩ := Option.filter_eq_some_iff.mp hvalue
  exact Option.filter_eq_some_iff.mpr ⟨hsome, decide_eq_true d.value.isLt⟩

theorem hexValue?_char (d : Digit 16) : Json.hexValue? d.char = some d.value.val := by
  have hall : ∀ n < 16,
      Json.hexValue? n.digitChar.toUpper = some n ∧ Json.hexValue? n.digitChar = some n := by
    decide
  have hboth := hall d.value.val d.value.isLt
  unfold Digit.char Digit.small
  split
  · exact hboth.1
  · exact hboth.2

/-! ## Rows of digits -/

/-- **The digits of a code** in either case. -/
theorem hexNumber?_chars (first : Digit 16) (more : List (Digit 16)) :
    hexNumber? ((first :: more).map Digit.char) =
      if magnitude (first :: more) < 2 ^ 32 then some (magnitude (first :: more)) else none := by
  have hplus : first.char ≠ '+' := char_ne (by decide) (by decide) first
  have hvalues := mapM_chars hexValue?_char (first :: more)
  rw [List.map_cons] at hvalues ⊢
  unfold hexNumber?
  split
  · next heq => exact absurd (List.cons.inj heq).1 hplus
  · simp only [hvalues, List.isEmpty_cons, Bool.false_eq_true, if_false, Option.bind_some,
      foldl_values]
    rfl

/-- No digit is a sign. -/
theorem splitSign_small (hradix : radix ≤ 16) (first : Digit radix) (rest : List Char) :
    Decimal.splitSign (first.small :: rest) = (false, first.small :: rest) := by
  have hall : ∀ n < 16, n.digitChar ≠ '-' ∧ n.digitChar ≠ '+' := by decide
  have hsign := hall first.value.val (by omega)
  exact Decimal.splitSign_of_ne hsign.1 hsign.2 rest

/-- **The digits of an integer** in small letters. -/
theorem readInteger?_chars (hradix : radix ≤ 16) (first : Digit radix)
    (more : List (Digit radix)) :
    readInteger? radix ((first :: more).map Digit.small) =
      if magnitude (first :: more) < 2 ^ 63 then some (magnitude (first :: more) : Int)
      else none := by
  have hlimit : wordLimit = 2 ^ 63 := rfl
  have hvalues := mapM_chars (digitValue?_small hradix) (first :: more)
  have hsign := splitSign_small hradix first (more.map Digit.small)
  rw [List.map_cons] at hvalues ⊢
  rw [readInteger?, hsign]
  dsimp only
  rw [List.isEmpty_cons, if_neg Bool.false_ne_true, hvalues, Option.bind_some, foldl_values,
    if_neg Bool.false_ne_true]
  -- a number without a sign cannot be too small
  by_cases hfits : magnitude (first :: more) < 2 ^ 63
  · rw [if_pos hfits]
    exact if_pos (by omega)
  · rw [if_neg hfits]
    exact if_neg (by omega)

end Mosaic.Literal
