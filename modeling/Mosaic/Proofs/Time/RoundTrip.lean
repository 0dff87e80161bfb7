import Mathlib.Algebra.Group.Nat.Defs
import Mathlib.Data.List.Basic
import Mosaic.Proofs.Decimal.Numeral
import Mosaic.Time.Timestamp

/-!
# Reading points in time back

The canonical text of a point in time is read as the same point in time, with the digits
of its fraction, as long as its year has four digits. Every number in the text is padded
to a fixed width, so that the reader takes just its digits.

* `readNumber_digits`: a run of digits is read, up to the width that is asked for.
* `parse_render`: reading undoes writing.
-/

namespace Mosaic.Time.Timestamp

/-! ## Numbers of a fixed width -/

theorem length_padded {width n : Nat} (hwidth : 0 < width) (hn : n < 10 ^ width) :
    (padded width n).length = width := by
  have hle := (Nat.length_toDigits_le_iff (b := 10) (by decide) hwidth).mpr hn
  simp only [padded, List.length_append, List.length_replicate]
  omega

theorem isDigit_of_mem_padded {width n : Nat} : ∀ c ∈ padded width n, c.isDigit = true := by
  intro c hc
  rcases List.mem_append.mp hc with hzero | hdigit
  · rw [List.eq_of_mem_replicate hzero]
    rfl
  · exact Decimal.isDigit_of_mem_toDigits c hdigit

theorem digitsValue_padded (width n : Nat) : digitsValue (padded width n) = n := by
  rw [digitsValue, padded, Nat.ofDigitChars_append, Nat.ofDigitChars_replicate_zero, Nat.mul_zero,
    Nat.ofDigitChars_ten_toDigits]

/-- A number in its width begins with a digit, which is not blank. -/
theorem padded_eq_cons (width n : Nat) :
    ∃ c tail, padded width n = c :: tail ∧ c.isDigit = true := by
  have hne : padded width n ≠ [] := by
    rw [padded, ne_eq, List.append_eq_nil_iff, not_and_or]
    exact .inr Nat.toDigits_ne_nil
  obtain ⟨c, tail, heq⟩ := List.exists_cons_of_ne_nil hne
  exact ⟨c, tail, heq, isDigit_of_mem_padded (n := n) c (heq ▸ List.mem_cons_self ..)⟩

theorem isBlank_of_isDigit {c : Char} (h : c.isDigit = true) : Text.isBlank c = false :=
  Decimal.of_isDigit (p := fun c => Text.isBlank c = false) (by decide) h

theorem trimStart_padded (width n : Nat) (rest : List Char) :
    Text.trimStart (padded width n ++ rest) = padded width n ++ rest := by
  obtain ⟨c, tail, heq, hdigit⟩ := padded_eq_cons width n
  rw [heq, List.cons_append, Text.trimStart,
    List.dropWhile_cons_of_neg (by simp [isBlank_of_isDigit hdigit])]

section

variable {width : Nat} {digits rest : List Char}

/-- Digits end where their width does, or before a character that is none. -/
theorem takeWhile_digits (hdigits : ∀ c ∈ digits, c.isDigit = true) (hwidth : digits.length ≤ width)
    (hrest : digits.length = width ∨ ∀ c ∈ rest.head?, c.isDigit = false) :
    ((digits ++ rest).take width).takeWhile Char.isDigit = digits := by
  have hnil : (rest.take (width - digits.length)).takeWhile Char.isDigit = [] := by
    cases hcut : rest.take (width - digits.length) with
    | nil => rfl
    | cons c tail =>
      have hhead : (rest.take (width - digits.length)).head? = some c := by rw [hcut]; rfl
      rw [List.head?_take] at hhead
      split at hhead
      · cases hhead
      · next hroom =>
        rcases hrest with hfull | hother
        · exact absurd (by omega) hroom
        · exact List.takeWhile_cons_of_neg (by simp [hother c hhead])
  rw [List.take_append, List.take_of_length_le hwidth, List.takeWhile_append_of_pos hdigits, hnil,
    List.append_nil]

/-- **A run of digits** is read up to the width that is asked for, unless more digits follow
within it. -/
theorem readNumber_digits (hne : digits ≠ []) (hdigits : ∀ c ∈ digits, c.isDigit = true)
    (hwidth : digits.length ≤ width)
    (hrest : digits.length = width ∨ ∀ c ∈ rest.head?, c.isDigit = false)
    (hsmall : digitsValue digits < 2 ^ 63) :
    readNumber (some width) (digits ++ rest) = .ok (digitsValue digits, rest) := by
  have hnil : digits ++ rest ≠ [] := List.append_ne_nil_of_left_ne_nil hne rest
  unfold readNumber
  split
  · next h => exact absurd h hnil
  · dsimp only
    rw [takeWhile_digits hdigits hwidth hrest, if_neg (by simpa using hne),
      if_neg (by simpa using hsmall), List.drop_left]

end

theorem readNumber_padded_of_le {width greatest n : Nat} {rest : List Char} (hwidth : 0 < width)
    (hgreatest : width ≤ greatest) (hn : n < 10 ^ width) (hsmall : n < 2 ^ 63)
    (hrest : width = greatest ∨ ∀ c ∈ rest.head?, c.isDigit = false) :
    readNumber (some greatest) (padded width n ++ rest) = .ok (n, rest) := by
  have hlength := length_padded hwidth hn
  have hne : padded width n ≠ [] := List.ne_nil_of_length_pos (Nat.lt_of_lt_of_eq hwidth hlength.symm)
  have hread := readNumber_digits hne isDigit_of_mem_padded (Nat.le_trans (Nat.le_of_eq hlength) hgreatest)
    (by rwa [hlength]) (by rwa [digitsValue_padded])
  rwa [digitsValue_padded] at hread

/-- A number in a field of fixed width is read as itself. -/
theorem readNumber_padded {width n : Nat} (hwidth : 0 < width) (hn : n < 10 ^ width)
    (hsmall : n < 2 ^ 63) (rest : List Char) :
    readNumber (some width) (padded width n ++ rest) = .ok (n, rest) :=
  readNumber_padded_of_le hwidth (Nat.le_refl width) hn hsmall (.inl rfl)

/-! ## The parts of a text -/

theorem readField_padded {least greatest n : Nat} (hleast : least ≤ n) (hgreatest : n ≤ greatest)
    (hn : n < 100) (rest : List Char) :
    readField least greatest (padded 2 n ++ rest) = .ok (n, rest) := by
  have hread := readNumber_padded (show 0 < 2 by decide) (show n < 10 ^ 2 by omega) (by omega) rest
  rw [readField, trimStart_padded, hread]
  show (if least ≤ n ∧ n ≤ greatest then Except.ok (n, rest) else Except.error Error.outOfRange) = _
  rw [if_pos ⟨hleast, hgreatest⟩]

/-- A step that succeeds hands its result to the next one. -/
theorem ok_bind {α β : Type} (a : α) (next : α → Except Error β) :
    (Except.ok a >>= next) = next a := rfl

theorem readYear_padded {n : Nat} (hn : n < 10000) (rest : List Char) :
    readYear (padded 4 n ++ rest) = .ok ((n : Int), rest) := by
  have hread := readNumber_padded (show 0 < 4 by decide) (show n < 10 ^ 4 by omega) (by omega) rest
  have hlimit : yearLimit = 2147483648 := by decide
  have hbounds : -yearLimit ≤ (n : Int) ∧ (n : Int) < yearLimit := ⟨by omega, by omega⟩
  obtain ⟨c, tail, heq, hdigit⟩ := padded_eq_cons 4 n
  have htrim := trimStart_padded 4 n rest
  rw [heq, List.cons_append] at hread htrim ⊢
  unfold readYear
  rw [htrim]
  dsimp only
  -- the first character is a digit and so no sign
  split
  · next h => rw [(List.cons.inj h).1] at hdigit; exact absurd hdigit (by decide)
  · next h => rw [(List.cons.inj h).1] at hdigit; exact absurd hdigit (by decide)
  · rw [hread, Except.map, ok_bind]
    exact if_pos hbounds

theorem expect_cons {c : Char} (h : Text.isBlank c = false) (rest : List Char) :
    expect c (c :: rest) = .ok rest := by
  rw [expect, Text.trimStart, List.dropWhile_cons_of_neg (by simp [h])]
  exact if_pos rfl

/-- The first digits of a fraction are read as those of its nine digits that are written. -/
theorem readFraction_padded {width n : Nat} (hpos : 0 < width) (hwidth : width ≤ 9)
    (hn : n < 10 ^ width) :
    readFraction ('.' :: padded width n ++ ['Z']) = .ok (n * 10 ^ (9 - width), ['Z']) := by
  have hpow : 10 ^ width ≤ 10 ^ 9 := Nat.pow_le_pow_right (by decide) hwidth
  -- up to nine digits are read; the zone behind them is no digit
  have hread : readNumber (some 9) (padded width n ++ ['Z']) = .ok (n, ['Z']) :=
    readNumber_padded_of_le hpos hwidth hn (by omega) (.inr (by simp))
  rw [List.cons_append]
  show (readNumber (some 9) (padded width n ++ ['Z']) >>= _) = _
  rw [hread]
  show Except.ok (n * Nat.pow 10 (9 - ((padded width n ++ ['Z']).length - 1)), ['Z']) = _
  rw [List.length_append, length_padded hpos hn]
  rfl

/-- The fraction of a second in as many digits as are needed is read as it was. -/
theorem readFraction_fractionText {nano : Nat} (hnano : nano < 1000000000) :
    readFraction (fractionText nano ++ ['Z']) = .ok (nano, ['Z']) := by
  unfold fractionText
  split
  · next hzero => rw [hzero]; rfl
  split
  · next hmilli =>
    have hnano : nano / 1000000 * 10 ^ (9 - 3) = nano := by omega
    rw [readFraction_padded (by decide) (by decide) (by omega), hnano]
  split
  · next hmicro =>
    have hnano : nano / 1000 * 10 ^ (9 - 6) = nano := by omega
    rw [readFraction_padded (by decide) (by decide) (by omega), hnano]
  · rw [readFraction_padded (by decide) (by decide) hnano]
    simp

/-- A point in time in UTC is its own local time. -/
theorem ofLocal_zero (t : Timestamp) :
    ofLocal t.date t.hour t.minute t.second t.nano 0 = .ok t := by
  obtain ⟨date, hour, minute, second, nano⟩ := t
  have hhour := hour.isLt
  have hminute := minute.isLt
  have hofDay : (((hour.val : Int) * 60 + minute.val - 0) % 1440).toNat =
      hour.val * 60 + minute.val := by omega
  unfold ofLocal
  dsimp only
  -- the minutes of the day stay within the day
  rw [if_neg (by omega), if_neg (by omega), hofDay]
  have hdiv : (hour.val * 60 + minute.val) / 60 = hour.val := by omega
  have hmod : (hour.val * 60 + minute.val) % 60 = minute.val := by omega
  rw [hdiv, hmod]
  simp only [ofFields, Fin.ofNat_val_eq_self]

theorem daysInMonth_le (year : Int) (month : Nat) : daysInMonth year month ≤ 31 := by
  unfold daysInMonth
  split
  · split <;> omega
  · split <;> omega

/-- **Reading undoes writing**, for years of four digits. -/
theorem parse_render {t : Timestamp} (hleast : 0 ≤ t.date.year) (hgreatest : t.date.year ≤ 9999) :
    parse t.render = .ok t := by
  obtain ⟨-, hmonth, hmonth', hday, hday'⟩ := t.date.valid
  have hdays := daysInMonth_le t.date.year t.date.month
  have hhour := t.hour.isLt
  have hminute := t.minute.isLt
  have hsecond := t.second.isLt
  have hyear : yearText t.date.year = padded 4 t.date.year.natAbs := by
    rw [yearText, if_neg (by omega), if_pos hgreatest]
  have hdate : Date.of? t.date.year t.date.month t.date.day = some t.date := by
    rw [Date.of?, dif_pos t.date.valid]
  have hnat : (t.date.year.natAbs : Int) = t.date.year := by omega
  -- each part leaves the text of the next one
  rw [parse, render, hyear, readYear_padded (by omega)]
  simp only [bind, Except.bind]
  rw [expect_cons rfl]
  simp only [readField_padded hmonth hmonth' (by omega)]
  rw [expect_cons rfl]
  simp only [readField_padded hday (Nat.le_trans hday' hdays) (by omega), readSeparator, true_or,
    if_true]
  simp only [readField_padded (Nat.zero_le _) (Nat.le_of_lt_succ hhour) (by omega)]
  rw [expect_cons rfl]
  simp only [readField_padded (Nat.zero_le _) (Nat.le_of_lt_succ hminute) (by omega)]
  rw [expect_cons rfl]
  simp only [readField_padded (Nat.zero_le _) (Nat.le_of_lt_succ hsecond) (by omega),
    readFraction_fractionText t.nano.isLt]
  have htrim : Text.trimStart ['Z'] = ['Z'] := rfl
  have hoffset : readOffset ['Z'] = .ok (0, []) := rfl
  simp only [htrim, hoffset, hnat, hdate]
  rw [if_neg (by decide), if_pos (by decide), ofLocal_zero]

end Mosaic.Time.Timestamp
