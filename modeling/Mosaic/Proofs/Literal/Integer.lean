import Mosaic.Proofs.Decimal.Numeral
import Mosaic.Proofs.Literal.Digit

/-!
# Spellings of an integer

A natural number may be written with decimal digits, or behind a prefix with the digits of one of
three other radices, in either case and with zeros in front. Underscores may stand between the
digits. All spellings of a number below `2 ^ 63` are read as the same integer. Beyond that nothing
is read behind a prefix, and decimal digits are not read as an integer.

* `Numeral`, `Spelling`: rows of digits, and the literals made of them.
* `essence_chars`: what is left of a numeral without underscores and capital letters.
* `readNumber?_prefixed`, `readNumber?_decimal`, `readNumber?_leadingZero`: single forms.
* `readNumber?_spelling`: all spellings of an integer, and digits that begin with a zero too many.
* `readNumber?_toDigits`: the digits in which an integer is written.
-/

namespace Mosaic.Literal

/-! ## Spellings -/

/-- Digits with underscores between them. -/
structure Numeral (radix : Nat) where
  first : Digit radix
  /-- The other digits, each behind a number of underscores. -/
  more : List (Nat × Digit radix)

namespace Numeral

variable {radix : Nat}

/-- The digits of a numeral, without the bars between them. -/
def digits (numeral : Numeral radix) : List (Digit radix) :=
  numeral.first :: numeral.more.map Prod.snd

/-- A numeral as it is written. -/
def chars (numeral : Numeral radix) : List Char :=
  numeral.first.char ::
    numeral.more.flatMap fun (bars, digit) => List.replicate bars '_' ++ [digit.char]

/-- The number that the digits stand for. -/
def value (numeral : Numeral radix) : Nat := magnitude numeral.digits

end Numeral

/-- The radices other than ten. -/
inductive Prefix
  | hexadecimal
  | octal
  | binary

/-- The base to which a prefix belongs. -/
def Prefix.radix : Prefix → Nat
  | hexadecimal => 16
  | octal => 8
  | binary => 2

/-- The letter of a prefix. -/
def Prefix.letter : Prefix → Char
  | hexadecimal => 'x'
  | octal => 'o'
  | binary => 'b'

/-- A literal that denotes a natural number. -/
inductive Spelling
  /-- Decimal digits, of which only a zero that stands alone is a zero at the front. -/
  | decimal (numeral : Numeral 10) (proper : numeral.first.value.val = 0 → numeral.more = [])
  | prefixed (kind : Prefix) (capital : Bool) (numeral : Numeral kind.radix)

namespace Spelling

/-- A number as it is written, with the letter of its prefix small or capital. -/
def chars : Spelling → List Char
  | decimal numeral _ => numeral.chars
  | prefixed kind capital numeral =>
    '0' :: (if capital then kind.letter.toUpper else kind.letter) :: numeral.chars

/-- The number that is meant, whatever the base. -/
def value : Spelling → Nat
  | decimal numeral _ => numeral.value
  | prefixed _ _ numeral => numeral.value

/-- Whether a number is written without a prefix. -/
def isDecimal : Spelling → Bool
  | decimal .. => true
  | prefixed .. => false

end Spelling

/-! ## Underscores and capital letters -/

/-- What counts of a literal: its characters in small letters, without underscores. -/
def essence (text : List Char) : List Char := (text.filter (· ≠ '_')).map Char.toLower

theorem essence_append (text more : List Char) :
    essence (text ++ more) = essence text ++ essence more := by
  simp [essence, List.filter_append]

/-- Letters count as small ones. -/
theorem essence_cons {c : Char} (hc : c ≠ '_') (rest : List Char) :
    essence (c :: rest) = c.toLower :: essence rest := by
  simp [essence, hc]

theorem essence_bars (bars : Nat) : essence (List.replicate bars '_') = [] := by
  simp [essence]

/-- Of a digit there remains the small one. -/
theorem essence_char {radix : Nat} (hradix : radix ≤ 16) (d : Digit radix) (rest : List Char) :
    essence (d.char :: rest) = d.small :: essence rest := by
  rw [essence_cons (char_ne (by decide) hradix d), toLower_char hradix]

namespace Numeral

variable {radix : Nat}

/-- **The essence of a numeral** are its digits. -/
theorem essence_chars (hradix : radix ≤ 16) (numeral : Numeral radix) :
    essence numeral.chars = numeral.digits.map Digit.small := by
  have hmore : ∀ more : List (Nat × Digit radix),
      essence (more.flatMap fun (bars, digit) => List.replicate bars '_' ++ [digit.char]) =
        (more.map Prod.snd).map Digit.small := by
    intro more
    induction more with
    | nil => rfl
    | cons entry more ih =>
      obtain ⟨bars, digit⟩ := entry
      rw [List.flatMap_cons, essence_append, essence_append, essence_bars, essence_char hradix, ih]
      rfl
  rw [chars, essence_char hradix, hmore, digits, List.map_cons]

/-- **Digits are read as their number** below the limit of 63 bits, and else not at all. -/
theorem readInteger?_digits (hradix : radix ≤ 16) (numeral : Numeral radix) :
    readInteger? radix (numeral.digits.map Digit.small) =
      if numeral.value < 2 ^ 63 then some (numeral.value : Int) else none :=
  readInteger?_chars hradix numeral.first (numeral.more.map Prod.snd)

end Numeral

/-! ## Decimal digits -/

theorem isDigit_small (d : Digit 10) : d.small.isDigit = true := by
  have hall : ∀ n < 10, n.digitChar.isDigit = true := by decide
  exact hall d.value.val d.value.isLt

theorem isDigit_of_mem_small (digits : List (Digit 10)) :
    ∀ c ∈ digits.map Digit.small, c.isDigit = true := by
  intro c hc
  obtain ⟨d, -, rfl⟩ := List.mem_map.mp hc
  exact isDigit_small d

theorem small_eq_zero_iff (d : Digit 10) : d.small = '0' ↔ d.value.val = 0 := by
  have hall : ∀ n < 10, n.digitChar = '0' ↔ n = 0 := by decide
  exact hall d.value.val d.value.isLt

/-- Two ways to read digits come to the same number. -/
theorem foldl_digits (digits : List Char) (n : Nat) :
    (digits.map fun c => c.toNat - '0'.toNat).foldl (fun n d => 10 * n + d) n =
      Nat.ofDigitChars 10 digits n := by
  induction digits generalizing n with
  | nil => rfl
  | cons c rest ih =>
    rw [List.map_cons, List.foldl_cons, ih, Nat.ofDigitChars_cons]

/-- The number of decimal digits, read by either of the two. -/
theorem natOfDigits_small (digits : List (Digit 10)) :
    Decimal.natOfDigits (digits.map Digit.small) = magnitude digits := by
  have hall : ∀ n < 10, n.digitChar.toNat - '0'.toNat = n := by decide
  have hvalues : (digits.map Digit.small).map (fun c => c.toNat - '0'.toNat) =
      digits.map fun d => d.value.val := by
    rw [List.map_map]
    exact List.map_congr_left fun d _ => hall d.value.val d.value.isLt
  rw [Decimal.natOfDigits, ← foldl_digits, hvalues, foldl_values]

/-- Behind a digit stands another digit or nothing, and so never the letter of a prefix. -/
theorem splitRadix_small (first : Digit 10) (more : List (Digit 10)) (rest : List Char)
    (h : more = [] → rest = []) : splitRadix ((first :: more).map Digit.small ++ rest) = none := by
  cases more with
  | nil =>
    rw [h rfl]
    unfold splitRadix
    split <;> simp_all
  | cons second more =>
    have hsecond := isDigit_small second
    unfold splitRadix
    split
    · next heq => simp [(List.cons.inj (List.cons.inj heq).2).1] at hsecond
    · next heq => simp [(List.cons.inj (List.cons.inj heq).2).1] at hsecond
    · next heq => simp [(List.cons.inj (List.cons.inj heq).2).1] at hsecond
    · rfl

/-- A zero is one too many if it stands in front of other digits. -/
theorem hasLeadingZero_small (first : Digit 10) (more : List (Digit 10)) (rest : List Char)
    (h : more = [] → rest = []) :
    hasLeadingZero ((first :: more).map Digit.small ++ rest) =
      decide (first.value.val = 0 ∧ more ≠ []) := by
  have hfirst := small_eq_zero_iff first
  cases more with
  | nil =>
    rw [h rfl]
    unfold hasLeadingZero
    split <;> simp_all
  | cons second more =>
    unfold hasLeadingZero
    -- only a zero before another digit leads
    split
    · next heq =>
      obtain ⟨hzero, htail⟩ := List.cons.inj heq
      have hdigit : second.small = _ := (List.cons.inj htail).1
      simp [hfirst.mp hzero, ← hdigit, isDigit_small]
    · next hne =>
      have hpositive : first.value.val ≠ 0 := by
        intro hzero
        refine hne second.small (more.map Digit.small ++ rest) ?_
        rw [List.map_cons, List.map_cons, hfirst.mpr hzero]
        rfl
      simp [hpositive]

/-- Among small digits there is nothing that is no digit. -/
theorem contains_small {c : Char} (hc : c.isDigit = false) (digits : List (Digit 10)) :
    (digits.map Digit.small).contains c = false := by
  rw [← Bool.not_eq_true, List.contains_iff_mem]
  intro hmem
  rw [isDigit_of_mem_small digits c hmem] at hc
  cases hc

/-! ## Literals -/

theorem negate_of_nonneg {n : Nat} : negate (n : Int) = -(n : Int) := by
  have hlimit : wordLimit = 2 ^ 63 := rfl
  rw [negate, if_neg (by omega)]

variable (negative : Bool)

/-- **Behind a prefix** stands an integer of 64 bits or nothing that is read. -/
theorem readNumber?_prefixed (kind : Prefix) (capital : Bool) (numeral : Numeral kind.radix) :
    readNumber? (Spelling.prefixed kind capital numeral).chars negative =
      if numeral.value < 2 ^ 63 then
        some (.int (if negative then -(numeral.value : Int) else numeral.value))
      else none := by
  have hradix : kind.radix ≤ 16 := by cases kind <;> decide
  have hletter : (if capital then kind.letter.toUpper else kind.letter) ≠ '_' ∧
      (if capital then kind.letter.toUpper else kind.letter).toLower = kind.letter := by
    cases kind <;> cases capital <;> decide
  have hessence : essence (Spelling.prefixed kind capital numeral).chars =
      '0' :: kind.letter :: numeral.digits.map Digit.small := by
    rw [Spelling.chars, essence_cons (by decide), essence_cons hletter.1, hletter.2,
      numeral.essence_chars hradix]
    rfl
  have hsplit : splitRadix ('0' :: kind.letter :: numeral.digits.map Digit.small) =
      some (kind.radix, numeral.digits.map Digit.small) := by
    cases kind <;> rfl
  unfold essence at hessence
  rw [readNumber?, hessence, hsplit]
  dsimp only
  rw [numeral.readInteger?_digits hradix]
  -- the least integer has no negation, but it is no numeral either
  split
  · rw [Option.map_some, signed, negate_of_nonneg]
  · rfl

/-- **Decimal digits** that do not fit into 64 bits are read as a floating-point number. -/
theorem readNumber?_decimal (numeral : Numeral 10)
    (proper : numeral.first.value.val = 0 → numeral.more = []) :
    readNumber? (Spelling.decimal numeral proper).chars negative =
      if numeral.value < 2 ^ 63 then
        some (.int (if negative then -(numeral.value : Int) else numeral.value))
      else readDecimal? negative (numeral.digits.map Digit.small) := by
  have hessence := numeral.essence_chars (by decide)
  have hsplit : splitRadix (numeral.digits.map Digit.small) = none := by
    simpa [Numeral.digits] using
      splitRadix_small numeral.first (numeral.more.map Prod.snd) [] fun _ => rfl
  have hleading : hasLeadingZero (numeral.digits.map Digit.small) = false := by
    have hzero := hasLeadingZero_small numeral.first (numeral.more.map Prod.snd) [] fun _ => rfl
    rw [List.append_nil] at hzero
    rw [Numeral.digits, hzero, decide_eq_false_iff_not]
    intro ⟨hfirst, hmore⟩
    exact hmore (by rw [proper hfirst, List.map_nil])
  unfold essence at hessence
  rw [readNumber?, Spelling.chars, hessence, hsplit]
  dsimp only
  -- digits have neither a point nor an exponent, so that an integer is tried first
  rw [hleading, if_neg Bool.false_ne_true, contains_small rfl, contains_small rfl, Bool.not_false,
    Bool.and_self, if_pos rfl, numeral.readInteger?_digits (by decide)]
  by_cases hfits : numeral.value < 2 ^ 63
  · rw [if_pos hfits, if_pos hfits]
    show some (signed negative numeral.value) = _
    rw [signed, negate_of_nonneg]
  · rw [if_neg hfits, if_neg hfits]

/-- **Too many digits**: a zero in front of another decimal digit, whatever comes after them. -/
theorem readNumber?_leadingZero (numeral : Numeral 10) (rest : List Char)
    (hfirst : numeral.first.value.val = 0) (hmore : numeral.more ≠ []) :
    readNumber? (numeral.chars ++ rest) negative = none := by
  have hdigits : numeral.more.map Prod.snd ≠ [] := fun hnil => hmore (List.map_eq_nil_iff.mp hnil)
  have hessence : essence (numeral.chars ++ rest) =
      (numeral.first :: numeral.more.map Prod.snd).map Digit.small ++ essence rest := by
    rw [essence_append, numeral.essence_chars (by decide), Numeral.digits]
  have hsplit := splitRadix_small numeral.first (numeral.more.map Prod.snd) (essence rest)
    fun hnil => absurd hnil hdigits
  have hleading := hasLeadingZero_small numeral.first (numeral.more.map Prod.snd) (essence rest)
    fun hnil => absurd hnil hdigits
  rw [decide_eq_true ⟨hfirst, hdigits⟩] at hleading
  rw [← hessence] at hsplit hleading
  unfold essence at hsplit hleading
  rw [readNumber?, hsplit]
  dsimp only
  rw [hleading, if_pos rfl]

/-! ## The digits of an integer -/

/-- Each decimal digit is the character of one. -/
theorem exists_digit {c : Char} (hc : c.isDigit = true) : ∃ d : Digit 10, d.char = c := by
  refine Decimal.of_isDigit (p := fun c => ∃ d : Digit 10, d.char = c) ?_ hc
  intro n hn
  exact ⟨⟨⟨n, hn⟩, false⟩, rfl⟩

/-- Decimal digits are no letters. -/
theorem char_eq_small (d : Digit 10) : d.char = d.small := by
  have hall : ∀ n < 10, n.digitChar.toUpper = n.digitChar := by decide
  unfold Digit.char
  split
  · exact hall d.value.val d.value.isLt
  · rfl

/-- A text of decimal digits is written by a list of digits. -/
theorem exists_digits {text : List Char} (h : ∀ c ∈ text, c.isDigit = true) :
    ∃ digits : List (Digit 10), digits.map Digit.char = text := by
  induction text with
  | nil => exact ⟨[], rfl⟩
  | cons c rest ih =>
    rw [List.forall_mem_cons] at h
    obtain ⟨d, rfl⟩ := exists_digit h.1
    obtain ⟨digits, rfl⟩ := ih h.2
    exact ⟨d :: digits, rfl⟩

/-- The digits of an integer are one of its spellings. -/
theorem exists_spelling_toDigits (n : Nat) :
    ∃ spelling : Spelling, spelling.chars = Nat.toDigits 10 n ∧ spelling.value = n := by
  obtain ⟨c, tail, heq, -⟩ := Decimal.exists_toDigits_eq_cons n
  have hisDigit : ∀ d ∈ c :: tail, d.isDigit = true := heq ▸ Decimal.isDigit_of_mem_toDigits
  obtain ⟨digits, hdigits⟩ := exists_digits hisDigit
  obtain ⟨first, more, rfl⟩ : ∃ first more, digits = first :: more := by
    cases digits with
    | nil => cases hdigits
    | cons first more => exact ⟨first, more, rfl⟩
  have hvalue : magnitude (first :: more) = n := by
    have hsmall : (first :: more).map Digit.small = c :: tail := by
      rw [← hdigits]
      exact List.map_congr_left fun d _ => (char_eq_small d).symm
    rw [← natOfDigits_small, hsmall, ← heq]
    exact Nat.ofDigitChars_ten_toDigits
  -- only the zero itself begins with a zero
  have hzero : first.value.val = 0 → more = [] := by
    intro hfirst
    have hc : c = '0' := by
      rw [← (List.cons.inj hdigits).1, char_eq_small, small_eq_zero_iff]
      exact hfirst
    have htail := Decimal.toDigits_of_zero_first (hc ▸ heq)
    rw [← (List.cons.inj hdigits).2, List.map_eq_nil_iff] at htail
    exact htail
  refine ⟨.decimal ⟨first, more.map fun d => (0, d)⟩ fun hfirst => ?_, ?_, ?_⟩
  · rw [hzero hfirst, List.map_nil]
  · rw [heq, ← hdigits, Spelling.chars, Numeral.chars, List.flatMap_map]
    simp [List.map_eq_flatMap]
  · simpa [Spelling.value, Numeral.value, Numeral.digits] using hvalue

/-! ## All spellings -/

/-- **A number is read** as the integer that it stands for below the limit. Above it, one with a
prefix is not read, and a decimal one is read as one with a fraction would be. -/
theorem readNumber?_chars (spelling : Spelling) :
    readNumber? spelling.chars negative =
      if spelling.value < 2 ^ 63 then
        some (.int (if negative then -(spelling.value : Int) else spelling.value))
      else
        match spelling with
        | .decimal numeral _ => readDecimal? negative (numeral.digits.map Digit.small)
        | .prefixed .. => none := by
  cases spelling with
  | decimal numeral proper => exact readNumber?_decimal negative numeral proper
  | prefixed kind capital numeral => exact readNumber?_prefixed negative kind capital numeral

/-- **The digits of an integer** of 63 bits are read as the integer, and as its negation behind a
minus sign. -/
theorem readNumber?_toDigits {n : Nat} (hn : n < 2 ^ 63) (negative : Bool) :
    readNumber? (Nat.toDigits 10 n) negative =
      some (.int (if negative then -(n : Int) else n)) := by
  obtain ⟨spelling, hchars, rfl⟩ := exists_spelling_toDigits n
  rw [← hchars, readNumber?_chars negative spelling, if_pos hn]

/-- **All spellings of an integer** of 63 bits are read as the integer, and as its negation behind
a minus sign. A decimal digit behind a zero at the front leaves nothing to read. -/
theorem readNumber?_spelling (negative : Bool) :
    (∀ spelling : Spelling, spelling.value < 2 ^ 63 →
      readNumber? spelling.chars negative =
        some (.int (if negative then -(spelling.value : Int) else spelling.value))) ∧
    ∀ (numeral : Numeral 10) (rest : List Char),
      numeral.first.value.val = 0 → numeral.more ≠ [] →
        readNumber? (numeral.chars ++ rest) negative = none := by
  refine ⟨fun spelling hfits => ?_, readNumber?_leadingZero negative⟩
  rw [readNumber?_chars negative spelling, if_pos hfits]

/-- Zeros in front, and capital and small letters, with underscores between them. -/
def largest : Numeral 16 where
  first := .hexadecimal 0 false
  more := [(0, .hexadecimal 0 false), (1, .hexadecimal 7 false), (2, .hexadecimal 15 true)] ++
    List.replicate 7 (0, .hexadecimal 15 false) ++ List.replicate 7 (0, .hexadecimal 15 true)

/-- The largest integer is read in its longest spelling and with a sign; digits that begin with a
zero have neither bars nor fractions. -/
theorem readNumber?_spelling_largest :
    largest.value < 2 ^ 63 ∧
      readNumber? "0X00_7__FfffffffFFFFFFF".toList true = some (.int (-9223372036854775807)) ∧
      readNumber? "0_8.5e1".toList false = none := by
  have hvalue : (Spelling.prefixed .hexadecimal true largest).value = 9223372036854775807 := by
    decide
  have hchars : (Spelling.prefixed .hexadecimal true largest).chars =
      "0X00_7__FfffffffFFFFFFF".toList := by decide
  have hfits : largest.value < 2 ^ 63 := by decide
  have hread := (readNumber?_spelling true).1 (.prefixed .hexadecimal true largest) hfits
  have hzero := (readNumber?_spelling false).2 ⟨⟨0, false⟩, [(1, ⟨8, false⟩)]⟩ ".5e1".toList rfl
    (List.cons_ne_nil _ _)
  rw [hchars, if_pos rfl, hvalue] at hread
  exact ⟨hfits, hread, hzero⟩

end Mosaic.Literal
