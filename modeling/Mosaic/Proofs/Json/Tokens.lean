import Mathlib.Data.List.Basic
import Mosaic.Proofs.Decimal.Numeral
import Mosaic.Proofs.Json.Spelling

/-!
# Reading strings and numbers back

A string in quotes is read as it was before it was quoted, and an integer of 64 bits as
itself, whatever follows; behind a number no character may stand that could belong to it.

* `readString_quoted`: reading undoes the escapes of a string.
* `readNumber_toDigits`: reading undoes the decimal digits of an integer.
* `Ended`, `StartsToken`: how the text behind a value and the text of a value begin.
-/

namespace Mosaic.Json

open Decimal

/-! ## Strings -/

/-- The digits of an escape are read as the number of the character. -/
theorem hexWord?_hexDigit : ∀ n < 32,
    hexWord? '0' '0' (hexDigit (n / 16)) (hexDigit (n % 16)) = some n := by
  decide

/-- A character of a string is read back from its written form. -/
theorem readString_escapeChar (c : Char) (tail : List Char) :
    readString (escapeChar c ++ tail) = pushChar c (readString tail) := by
  unfold escapeChar
  split
  · next h => subst h; simp [readString, simpleEscape?]
  split
  · next h => subst h; simp [readString, simpleEscape?]
  split
  · next h => subst h; simp [readString, simpleEscape?]
  split
  · next h => subst h; simp [readString, simpleEscape?]
  split
  · next h => subst h; simp [readString, simpleEscape?]
  split
  · next h => subst h; simp [readString, simpleEscape?]
  split
  · next h => subst h; simp [readString, simpleEscape?]
  split
  · -- a control character is written as a code, which is no surrogate
    next hcontrol =>
    have hcode := hexWord?_hexDigit c.toNat hcontrol
    have hlow : isLowSurrogate c.toNat = false := by
      rw [isLowSurrogate, Bool.and_eq_false_iff, decide_eq_false_iff_not]
      left
      omega
    have hhigh : isHighSurrogate c.toNat = false := by
      rw [isHighSurrogate, Bool.and_eq_false_iff, decide_eq_false_iff_not]
      left
      omega
    simp only [List.cons_append, List.nil_append, readString, hcode, hlow, hhigh,
      Bool.false_eq_true, if_false, Char.ofNat_toNat]
  · next hquote hslash _ _ _ _ _ hcontrol =>
    rw [List.singleton_append, readString]
    · rw [if_neg hcontrol]
    -- neither a quote nor a backslash, which are written with an escape
    all_goals simp_all

/-- **A quoted string** is read as the string itself. -/
theorem readString_quoted (chars rest : List Char) :
    readString (chars.flatMap escapeChar ++ '"' :: rest) = .ok (chars, rest) := by
  induction chars with
  | nil => simp [readString]
  | cons c chars ih =>
    rw [List.flatMap_cons, List.append_assoc, readString_escapeChar, ih]
    rfl

/-! ## What stands behind a value -/

/-- A text that does not go on with a number. -/
def Ended (rest : List Char) : Prop :=
  ∀ c tail, rest = c :: tail → c.isDigit = false ∧ c ≠ '.' ∧ c ≠ 'e' ∧ c ≠ 'E'

/-- A number is over where the text is. -/
theorem ended_nil : Ended [] := by
  intro c tail h
  cases h

/-- A number is over where neither a digit nor a point nor an exponent follows. -/
theorem ended_cons {c : Char} {tail : List Char} (hdigit : c.isDigit = false) (hpoint : c ≠ '.')
    (he : c ≠ 'e') (hE : c ≠ 'E') : Ended (c :: tail) := by
  intro d tail' h
  cases h
  exact ⟨hdigit, hpoint, he, hE⟩

/-- A number is over where a blank follows. -/
theorem ended_of_isBlank {c : Char} {tail : List Char} (h : isBlank c = true) :
    Ended (c :: tail) := by
  simp only [isBlank, Bool.or_eq_true, decide_eq_true_eq] at h
  rcases h with ((rfl | rfl) | rfl) | rfl <;> exact ended_cons rfl (by decide) (by decide) (by decide)

/-- Blanks may stand before a text that ends a number. -/
theorem ended_append {blanks rest : List Char} (hblanks : ∀ c ∈ blanks, isBlank c = true)
    (hrest : Ended rest) : Ended (blanks ++ rest) := by
  cases blanks with
  | nil => exact hrest
  | cons c blanks => exact ended_of_isBlank (hblanks c (List.mem_cons_self ..))

/-- A text that does not begin with a digit. -/
def NotDigit (rest : List Char) : Prop := ∀ c tail, rest = c :: tail → c.isDigit = false

theorem notDigit_cons {c : Char} {tail : List Char} (h : c.isDigit = false) :
    NotDigit (c :: tail) := by
  intro d tail' heq
  cases heq
  exact h

theorem Ended.notDigit {rest : List Char} (h : Ended rest) : NotDigit rest :=
  fun c tail heq => (h c tail heq).1

/-- Digits go as far as there are any. -/
theorem takeWhile_isDigit {digits rest : List Char} (hdigits : ∀ c ∈ digits, c.isDigit = true)
    (hrest : NotDigit rest) : (digits ++ rest).takeWhile Char.isDigit = digits := by
  rw [List.takeWhile_append_of_pos hdigits]
  cases rest with
  | nil => rw [List.takeWhile_nil, List.append_nil]
  | cons c tail =>
    rw [List.takeWhile_cons_of_neg (by simp [hrest c tail rfl]), List.append_nil]

/-- What follows the digits is left. -/
theorem dropWhile_isDigit {digits rest : List Char} (hdigits : ∀ c ∈ digits, c.isDigit = true)
    (hrest : NotDigit rest) : (digits ++ rest).dropWhile Char.isDigit = rest := by
  rw [List.dropWhile_append_of_pos hdigits]
  cases rest with
  | nil => rfl
  | cons c tail => rw [List.dropWhile_cons_of_neg (by simp [hrest c tail rfl])]

/-! ## Integers -/

/-- Digits that make up a number below the limit are all absorbed. -/
theorem absorb_eq {limit : Nat} (digits : List Char) (n : Nat)
    (h : Nat.ofDigitChars 10 digits n < limit) :
    absorb limit n digits = (Nat.ofDigitChars 10 digits n, []) := by
  induction digits generalizing n with
  | nil => rfl
  | cons c digits ih =>
    rw [Nat.ofDigitChars_cons] at h ⊢
    have hgrows : 10 * n + (c.toNat - '0'.toNat) ≤
        Nat.ofDigitChars 10 digits (10 * n + (c.toNat - '0'.toNat)) := by
      rw [Nat.ofDigitChars_eq_ofDigitChars_zero]
      exact Nat.le_add_right_of_le (Nat.le_mul_of_pos_left _ (Nat.pow_pos (by decide)))
    rw [absorb, if_pos (by omega), ih _ h]

/-- **A number without fraction and exponent** is an integer within the limits. Beyond them it is a
float, as is a negative zero. -/
theorem readAfterWhole_of_ended {rest : List Char} (hrest : Ended rest) (negative : Bool)
    (n extra : Nat) :
    readAfterWhole negative n extra rest =
      if extra ≠ 0 then scaled negative n extra rest
      else if !negative then .ok (.int n, rest)
      else if 0 < n ∧ n ≤ 2 ^ 63 then .ok (.int (-n), rest)
      else .ok (.float (-Binary64.ofNat n), rest) := by
  unfold readAfterWhole
  split
  · next tail => exact absurd rfl (hrest _ tail rfl).2.1
  · next tail => exact absurd rfl (hrest _ tail rfl).2.2.1
  · next tail => exact absurd rfl (hrest _ tail rfl).2.2.2
  · rfl

/-- **The digits of an integer** of 64 bits are read as the integer. -/
theorem readNumber_toDigits {n : Nat} (hn : n < 2 ^ 64) (negative : Bool) {rest : List Char}
    (hrest : Ended rest) :
    readNumber negative (Nat.toDigits 10 n ++ rest) = readAfterWhole negative n 0 rest := by
  -- a zero is read on its own, so that no digits may follow it
  rcases Nat.eq_zero_or_pos n with rfl | hpos
  · have htake : ([] ++ rest).takeWhile Char.isDigit = [] := takeWhile_isDigit (by simp) hrest.notDigit
    rw [List.nil_append] at htake
    rw [Nat.toDigits_zero, List.singleton_append, readNumber, if_pos rfl, htake]
    rfl
  · obtain ⟨c, tail, heq, hzero, hdigit⟩ := toDigits_eq_cons hpos
    have htake := takeWhile_isDigit (isDigit_of_mem_toDigits (n := n)) hrest.notDigit
    have hdrop := dropWhile_isDigit (isDigit_of_mem_toDigits (n := n)) hrest.notDigit
    have habsorb : absorb (Nat.pow 2 64) 0 (Nat.toDigits 10 n) = (n, []) := by
      rw [absorb_eq _ _ (by rwa [Nat.ofDigitChars_ten_toDigits]), Nat.ofDigitChars_ten_toDigits]
    rw [heq] at habsorb htake hdrop ⊢
    rw [List.cons_append] at htake hdrop ⊢
    rw [readNumber, if_neg hzero, if_pos hdigit, htake, hdrop]
    dsimp only
    rw [habsorb]
    rfl

/-! ## Scalars -/

/-- No blanks are passed over where there are none. -/
theorem skipBlanks_cons {c : Char} {rest : List Char} (h : isBlank c = false) :
    skipBlanks (c :: rest) = c :: rest := by
  rw [skipBlanks, List.dropWhile_cons_of_neg (by simp [h])]

/-- Blanks are skipped up to a character that is none. -/
theorem skipBlanks_append {blanks : List Char} (hblanks : ∀ c ∈ blanks, isBlank c = true)
    (rest : List Char) : skipBlanks (blanks ++ rest) = skipBlanks rest := by
  rw [skipBlanks, List.dropWhile_append_of_pos hblanks, skipBlanks]

theorem isBlank_of_isDigit {c : Char} (h : c.isDigit = true) : isBlank c = false :=
  of_isDigit (p := fun c => isBlank c = false) (by decide) h

/-- What begins with a digit is read as a number. -/
theorem readValueWith_of_isDigit {c : Char} (h : c.isDigit = true) (rest : List Char)
    (nested : Option (List Char → Except Fault (Json × List Char))) :
    readValueWith nested (c :: rest) =
      (readNumber false (c :: rest)).map fun (n, rest) => (.number n, rest) := by
  have hne : c ≠ 'n' ∧ c ≠ 't' ∧ c ≠ 'f' ∧ c ≠ '"' ∧ c ≠ '-' :=
    of_isDigit (p := fun c => c ≠ 'n' ∧ c ≠ 't' ∧ c ≠ 'f' ∧ c ≠ '"' ∧ c ≠ '-') (by decide) h
  rw [readValueWith, skipBlanks_cons (isBlank_of_isDigit h)]
  dsimp only
  rw [if_neg hne.1, if_neg hne.2.1, if_neg hne.2.2.1, if_neg hne.2.2.2.1, if_neg hne.2.2.2.2,
    if_pos h]

/-- A minus begins a number. -/
theorem readValueWith_minus (rest : List Char)
    (nested : Option (List Char → Except Fault (Json × List Char))) :
    readValueWith nested ('-' :: rest) =
      (readNumber true rest).map fun (n, rest) => (.number n, rest) := rfl

/-- **An integer of 64 bits** is read back as itself. -/
theorem readValueWith_integerText {n : Int} (hn : IsWord n) {rest : List Char}
    (hrest : Ended rest) (nested : Option (List Char → Except Fault (Json × List Char))) :
    readValueWith nested (integerText n ++ rest) = .ok (.number (.int n), rest) := by
  obtain ⟨hleast, hgreatest⟩ := hn
  unfold integerText
  -- after a minus sign the digits are read alike, up to a greater bound
  split
  · next hneg =>
    have hread := readNumber_toDigits (n := n.natAbs) (by omega) true hrest
    rw [readAfterWhole_of_ended hrest, if_neg (by decide), if_neg (by decide),
      if_pos ⟨by omega, by omega⟩] at hread
    have hnat : -(n.natAbs : Int) = n := by omega
    rw [List.cons_append, readValueWith_minus, hread, hnat]
    rfl
  · next hneg =>
    have hread := readNumber_toDigits (n := n.natAbs) (by omega) false hrest
    rw [readAfterWhole_of_ended hrest, if_neg (by decide), if_pos (show (!false) = true from rfl)]
      at hread
    have hnat : (n.natAbs : Int) = n := by omega
    obtain ⟨c, tail, heq, hdigit⟩ := exists_toDigits_eq_cons n.natAbs
    rw [heq, List.cons_append] at hread ⊢
    rw [readValueWith_of_isDigit hdigit, hread, hnat]
    rfl

/-- **A text is read** from its quoted form. -/
theorem readValueWith_quote (s : String) (rest : List Char)
    (nested : Option (List Char → Except Fault (Json × List Char))) :
    readValueWith nested (quote s ++ rest) = .ok (.string s, rest) := by
  have hread := readString_quoted s.toList rest
  show (readString ((s.toList.flatMap escapeChar ++ ['"']) ++ rest)).map _ = _
  rw [List.append_assoc, List.singleton_append, hread]
  show Except.ok (Json.string (String.ofList s.toList), rest) = _
  rw [String.ofList_toList]

/-- **A scalar** is read back from its text. -/
theorem readValueWith_scalar {value : Json} (hvalue : Integral IsWord value)
    (harray : ∀ items, value ≠ .array items) (hobject : ∀ members, value ≠ .object members)
    {rest : List Char} (hrest : Ended rest)
    (nested : Option (List Char → Except Fault (Json × List Char))) :
    readValueWith nested (value.compactChars ++ rest) = .ok (value, rest) := by
  cases hvalue with
  | null => rfl
  | bool b => cases b <;> rfl
  | number hn => exact readValueWith_integerText hn hrest nested
  | string s => exact readValueWith_quote s rest nested
  | array => exact absurd rfl (harray _)
  | object => exact absurd rfl (hobject _)

/-! ## How the text of a value begins -/

/-- A text that begins with something of a value: no blank, and no closing bracket. -/
def StartsToken (text : List Char) : Prop :=
  ∃ c tail, text = c :: tail ∧ isBlank c = false ∧ c ≠ ']' ∧ c ≠ '}'

/-- What begins with a token does so whatever follows it. -/
theorem startsToken_append {text : List Char} (h : StartsToken text) (rest : List Char) :
    StartsToken (text ++ rest) := by
  obtain ⟨c, tail, rfl, hc⟩ := h
  exact ⟨c, tail ++ rest, rfl, hc⟩

/-- A quoted text begins with its quote. -/
theorem startsToken_quote (s : String) : StartsToken (quote s) :=
  ⟨'"', _, rfl, rfl, by decide, by decide⟩

/-- The text of a number begins with a minus or with a digit. -/
theorem numberText_eq_cons (n : Number) :
    ∃ c tail, n.text = c :: tail ∧ (c = '-' ∨ c.isDigit = true) := by
  obtain ⟨negative, numeral, hnumeral, htext⟩ := n.exists_numeral
  cases negative with
  | true => exact ⟨'-', numeral, htext, .inl rfl⟩
  | false =>
    obtain ⟨c, tail, rfl, hdigit⟩ := hnumeral.eq_cons
    exact ⟨c, tail, htext, .inr hdigit⟩

/-- A scalar begins with something that opens no container. -/
theorem compactChars_scalar_eq_cons {value : Json} (harray : ∀ items, value ≠ .array items)
    (hobject : ∀ members, value ≠ .object members) :
    ∃ c tail, value.compactChars = c :: tail ∧ isBlank c = false ∧
      c ≠ ']' ∧ c ≠ '}' ∧ c ≠ '[' ∧ c ≠ '{' := by
  cases value with
  | null => exact ⟨'n', _, rfl, by decide⟩
  | bool b =>
    cases b
    · exact ⟨'f', _, rfl, by decide⟩
    · exact ⟨'t', _, rfl, by decide⟩
  | number n =>
    obtain ⟨c, tail, heq, rfl | hdigit⟩ := numberText_eq_cons n
    · exact ⟨'-', tail, heq, by decide⟩
    · refine ⟨c, tail, heq, isBlank_of_isDigit hdigit, ?_, ?_, ?_, ?_⟩ <;>
        (rintro rfl; revert hdigit; decide)
  | string s => exact ⟨'"', _, rfl, by decide⟩
  | array items => exact absurd rfl (harray items)
  | object members => exact absurd rfl (hobject members)

/-- The text of a value begins with something of the value. -/
theorem startsToken_spell (value : Json) (s : Spacing) (level : Nat) :
    StartsToken (s.spell level value) := by
  have hscalar : (∀ items, value ≠ .array items) → (∀ members, value ≠ .object members) →
      StartsToken (s.spell level value) := by
    intro harray hobject
    obtain ⟨c, tail, heq, hblank, hlist, hmap, -⟩ := compactChars_scalar_eq_cons harray hobject
    rw [Spacing.spell_scalar harray hobject, heq]
    exact ⟨c, tail, rfl, hblank, hlist, hmap⟩
  cases value with
  | array items =>
    rw [Spacing.spell_array]
    exact ⟨'[', _, rfl, by decide⟩
  | object members =>
    rw [Spacing.spell_object]
    exact ⟨'{', _, rfl, by decide⟩
  | null | bool | number | string => exact hscalar (by simp) (by simp)

end Mosaic.Json
