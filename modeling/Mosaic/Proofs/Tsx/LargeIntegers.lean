import Mosaic.Proofs.Decimal.Finite
import Mosaic.Proofs.Literal.Integer
import Mosaic.Proofs.Tsx.Constant

/-!
# Large integers in a constant

Beyond 63 bits an integer is no longer read as one. Its decimal spellings are read as the nearest
floating-point number, and behind a prefix nothing is read. A constant keeps what is read. What is
not read is missing among the elements of an array, and null under a key.

* `readNumber?_of_lt`: what a spelling is read as.
* `ofSpelling`, `literal_ofSpelling`: its expression, and the literal that this is.
* `evaluate_ofSpelling`: what is read, and what becomes of it in an array and under a key.
-/

namespace Mosaic

/-! ## Reading -/

namespace Literal

open Binary64 (ofNat)

variable (negative : Bool)

/-- A decimal literal without point and exponent is read as the nearest number. -/
theorem readDecimal?_digits (numeral : Numeral 10) {k : Nat} (hk : k ≤ 1023)
    (h : numeral.value < 2 ^ k) :
    readDecimal? negative (numeral.digits.map Digit.small) =
      some (.float (if negative then -ofNat numeral.value else ofNat numeral.value)) := by
  have hvalue : Decimal.natOfDigits (numeral.digits.map Digit.small) = numeral.value :=
    natOfDigits_small numeral.digits
  have hfloat : Decimal.readFloat (numeral.digits.map Digit.small) =
      some (ofNat numeral.value) := by
    rw [← hvalue] at h ⊢
    exact Decimal.readFloat_digits (isDigit_of_mem_small numeral.digits) hk h
  rw [readDecimal?, hfloat, Option.bind_some, if_pos (Binary64.isFinite_ofNat hk h)]

/-- What a spelling below `2 ^ 1023` is read as. -/
def Spelling.number? (spelling : Spelling) : Option Json.Number :=
  if spelling.value < 2 ^ 63 then
    some (.int (if negative then -(spelling.value : Int) else spelling.value))
  else if spelling.isDecimal then
    some (.float (if negative then -ofNat spelling.value else ofNat spelling.value))
  else none

/-- **Beyond 63 bits** only the decimal spellings are read. -/
theorem readNumber?_of_lt (spelling : Spelling) {k : Nat} (hk : k ≤ 1023)
    (h : spelling.value < 2 ^ k) :
    readNumber? spelling.chars negative = spelling.number? negative := by
  rw [readNumber?_chars negative spelling, Spelling.number?]
  cases spelling with
  | decimal numeral proper =>
    dsimp only
    rw [readDecimal?_digits negative numeral hk h]
    rfl
  | prefixed kind capital numeral => rfl

end Literal

/-! ## Constants -/

namespace Tsx.Expr

open Literal (Tree Numeral Digit Prefix Spelling readNumber? readNumber?_of_lt)

/-- The expression of a spelling. -/
def ofSpelling (negative : Bool) (spelling : Spelling) : Expr :=
  let digits := Expr.number (String.ofList spelling.chars)
  if negative then .unary "-" digits else digits

theorem literal_ofSpelling (negative : Bool) (spelling : Spelling) :
    (ofSpelling negative spelling).literal =
      ((readNumber? spelling.chars negative).map Tree.number).getD .unsupported := by
  cases negative with
  | true => simp [ofSpelling, literal, signedLiteral]
  | false => simp [ofSpelling, literal]

theorem isComment_ofSpelling (negative : Bool) (spelling : Spelling) :
    (ofSpelling negative spelling).isComment = false := by
  cases negative <;> rfl

/-- **A spelling in a constant** is kept if it is read. If it is not, it is left out of an array
and null under a key. -/
theorem evaluate_ofSpelling (negative : Bool) (spelling : Spelling)
    (h : spelling.value < 2 ^ 1023) (key : String) :
    readNumber? spelling.chars negative = spelling.number? negative ∧
      (Expr.array [ofSpelling negative spelling]).literal.evaluate =
        .array ((spelling.number? negative).map Json.number).toList ∧
      (Expr.object [.pair (.name key) (ofSpelling negative spelling) []]).literal.evaluate =
        .object [(key, ((spelling.number? negative).map Json.number).getD .null)] := by
  have hread := readNumber?_of_lt negative spelling Nat.le.refl h
  have hliteral := literal_ofSpelling negative spelling
  rw [hread] at hliteral
  refine ⟨hread, ?_, ?_⟩
  · -- as an element it is left out without a value, as a property it is null
    rw [literal, elementLiterals_cons (isComment_ofSpelling negative spelling), elementLiterals,
      hliteral, Tree.evaluate]
    cases spelling.number? negative with
    | none => simp [Tree.evaluateElements, Tree.isUnsupported]
    | some n => simp [Tree.evaluateElements, Tree.isUnsupported, Tree.evaluate]
  · rw [literal, Tree.evaluate]
    simp only [propertyLiterals, Key.name?, hliteral]
    cases spelling.number? negative with
    | none => simp [Tree.evaluateProperties, Tree.evaluate, putEntry]
    | some n => simp [Tree.evaluateProperties, Tree.evaluate, putEntry]

/-! ## The first integer that does not fit -/

/-- An eight and fifteen zeros. -/
def eightZeros : Numeral 16 :=
  ⟨.hexadecimal 8 false, List.replicate 15 (0, .hexadecimal 0 false)⟩

def hexadecimal : Spelling := .prefixed .hexadecimal false eightZeros

/-- The same integer in decimal digits. -/
def decimal : Spelling :=
  .decimal ⟨⟨9, false⟩, [2, 2, 3, 3, 7, 2, 0, 3, 6, 8, 5, 4, 7, 7, 5, 8, 0, 8].map
    fun n => (0, ⟨n, false⟩)⟩ (by decide)

theorem value_hexadecimal : hexadecimal.value = 2 ^ 63 := by decide

theorem value_decimal : decimal.value = 2 ^ 63 := by decide

theorem chars_hexadecimal : hexadecimal.chars = "0x8000000000000000".toList := by decide

theorem chars_decimal : decimal.chars = "9223372036854775808".toList := by decide

theorem hexadecimal_lt {k : Nat} (hk : 63 < k) : hexadecimal.value < 2 ^ k := by
  rw [value_hexadecimal]
  exact Nat.pow_lt_pow_right (by decide) hk

theorem number?_hexadecimal (negative : Bool) : hexadecimal.number? negative = none := by
  rw [Spelling.number?, value_hexadecimal, if_neg (Nat.lt_irrefl _)]
  rfl

theorem evaluate_ofSpelling_hexadecimal :
    hexadecimal.value < 2 ^ 1023 ∧ readNumber? "0x8000000000000000".toList true = none ∧
      (Expr.object [.pair (.name "least") (.unary "-" (.number "0x8000000000000000")) []]
        ).literal.evaluate = .object [("least", .null)] := by
  have hsmall := hexadecimal_lt (k := 1023) (by decide)
  obtain ⟨hread, -, hmember⟩ := evaluate_ofSpelling true hexadecimal hsmall "least"
  rw [number?_hexadecimal] at hread hmember
  rw [chars_hexadecimal] at hread
  rw [ofSpelling, chars_hexadecimal, String.ofList_toList] at hmember
  exact ⟨hsmall, hread, hmember⟩

/-- Of two spellings of the same integer one is left out of an array and the other is kept. -/
theorem spelling_left_out :
    (¬ ∀ (kind : Prefix) (capital : Bool) (numeral : Numeral kind.radix),
      numeral.value < 2 ^ 1023 →
        (readNumber? (Spelling.prefixed kind capital numeral).chars false).isSome = true) ∧
    hexadecimal.value = decimal.value ∧
    (Expr.array [.number "0x8000000000000000", .number "9223372036854775808"]).literal.evaluate =
      .array [.number (.float (Binary64.ofNat (2 ^ 63)))] := by
  -- the value stands at the limit: as hexadecimal it is refused, as decimal it is rounded
  have hhexadecimal : readNumber? hexadecimal.chars false = none := by
    rw [readNumber?_of_lt false hexadecimal (by decide) (hexadecimal_lt (k := 64) (by decide)),
      number?_hexadecimal]
  have hdecimal : readNumber? decimal.chars false =
      some (.float (Binary64.ofNat (2 ^ 63))) := by
    have hsmall : decimal.value < 2 ^ 64 := by decide
    rw [readNumber?_of_lt false decimal (by decide) hsmall, Spelling.number?, value_decimal,
      if_neg (Nat.lt_irrefl _)]
    rfl
  refine ⟨fun hall => ?_, value_hexadecimal.trans value_decimal.symm, ?_⟩
  · have hsome : (readNumber? hexadecimal.chars false).isSome = true :=
      hall .hexadecimal false eightZeros (hexadecimal_lt (k := 1023) (by decide))
    rw [hhexadecimal] at hsome
    cases hsome
  · have hleft : (ofSpelling false hexadecimal).literal = .unsupported := by
      rw [literal_ofSpelling, hhexadecimal]
      rfl
    have hright : (ofSpelling false decimal).literal =
        .number (.float (Binary64.ofNat (2 ^ 63))) := by
      rw [literal_ofSpelling, hdecimal]
      rfl
    -- without a value the first element of the array leaves no gap
    have hvalue : (Expr.array [ofSpelling false hexadecimal, ofSpelling false decimal]
        ).literal.evaluate = .array [.number (.float (Binary64.ofNat (2 ^ 63)))] := by
      rw [literal, elementLiterals_cons (isComment_ofSpelling ..),
        elementLiterals_cons (isComment_ofSpelling ..), elementLiterals, hleft, hright]
      simp [Tree.evaluate, Tree.evaluateElements, Tree.isUnsupported]
    rwa [ofSpelling, ofSpelling, chars_hexadecimal, chars_decimal, String.ofList_toList,
      String.ofList_toList] at hvalue

end Tsx.Expr

end Mosaic
