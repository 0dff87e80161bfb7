import Mathlib.Data.List.Basic
import Mosaic.Decimal.Reading
import Mosaic.Json.Printer

/-!
# The shape of written numbers

Whatever digits are the shortest for a number, they are laid out as a numeral: digits without a
leading zero, then perhaps a point with digits behind it, then perhaps an exponent.

* `forall_mem_of_all`, `of_isDigit`: what is decided for each of a few characters, and for all
  digits.
* `IsNumeral`: numerals without a sign.
* `AreProper`, `areProper_shortest`: there are digits, and they do not begin with a zero.
* `isNumeral_positional`, `isNumeral_scientific`: both layouts.
* `Number.exists_numeral`: the text of a number is a numeral, perhaps behind a minus sign.
-/

namespace Mosaic

/-- A property of each element of a list is decided along the list, whatever else the type of
its elements offers. -/
theorem forall_mem_of_all {α : Type} {p : α → Prop} [DecidablePred p] {l : List α}
    (h : l.all (fun x => decide (p x)) = true) : ∀ x ∈ l, p x :=
  fun x hx => of_decide_eq_true (List.all_eq_true.mp h x hx)

namespace Decimal

open Binary64

/-! ## Digits -/

/-- There are ten digits. -/
theorem of_isDigit {p : Char → Prop} (hall : ∀ n < 10, p n.digitChar) {c : Char}
    (hc : c.isDigit = true) : p c := by
  have hcode : ∀ n < 58, 48 ≤ n → (n - 48).digitChar = Char.ofNat n := by decide
  have hbounds : 48 ≤ c.toNat ∧ c.toNat ≤ 57 := by
    rw [Char.isDigit, Bool.and_eq_true, decide_eq_true_iff, decide_eq_true_iff] at hc
    exact hc
  have hdigit := hall (c.toNat - 48) (by omega)
  rwa [hcode c.toNat (by omega) hbounds.1, Char.ofNat_toNat] at hdigit

/-- The digits that are written for a number are read as digits. -/
theorem isDigit_of_mem_toDigits {n : Nat} : ∀ c ∈ Nat.toDigits 10 n, c.isDigit = true :=
  fun _ hc => Nat.isDigit_of_mem_toDigits (by decide) (by decide) hc

/-- Every number has a first digit. -/
theorem exists_toDigits_eq_cons (n : Nat) :
    ∃ c tail, Nat.toDigits 10 n = c :: tail ∧ c.isDigit = true := by
  obtain ⟨c, tail, heq⟩ := List.exists_cons_of_ne_nil (Nat.toDigits_ne_nil (n := n) (b := 10))
  exact ⟨c, tail, heq, isDigit_of_mem_toDigits (n := n) c (heq ▸ List.mem_cons_self ..)⟩

/-- A positive number does not begin with a zero. -/
theorem toDigits_eq_cons {n : Nat} (hn : 0 < n) :
    ∃ c tail, Nat.toDigits 10 n = c :: tail ∧ c ≠ '0' ∧ c.isDigit = true := by
  induction n using Nat.strongRecOn with
  | ind n ih =>
    by_cases hlt : n < 10
    · refine ⟨n.digitChar, [], Nat.toDigits_of_lt_base hlt, ?_⟩
      have hall : ∀ m < 10, 0 < m → m.digitChar ≠ '0' ∧ m.digitChar.isDigit = true := by decide
      exact hall n hlt hn
    · obtain ⟨c, tail, heq, hc⟩ := ih (n / 10) (by omega) (by omega)
      exact ⟨c, tail ++ [(n % 10).digitChar],
        by rw [Nat.toDigits_of_base_le (by decide) (by omega), heq, List.cons_append], hc⟩

/-- The digits of a positive integer do not begin with a zero, and a zero stands alone. -/
theorem toDigits_of_zero_first {n : Nat} {tail : List Char} (h : Nat.toDigits 10 n = '0' :: tail) :
    tail = [] := by
  rcases Nat.eq_zero_or_pos n with rfl | hpos
  · rw [Nat.toDigits_zero] at h
    exact (List.cons.inj h).2.symm
  · obtain ⟨c, rest, heq, hzero, -⟩ := toDigits_eq_cons hpos
    rw [heq] at h
    exact absurd (List.cons.inj h).1 hzero

/-- What begins with no sign has none. -/
theorem splitSign_of_ne {c : Char} (hminus : c ≠ '-') (hplus : c ≠ '+') (rest : List Char) :
    splitSign (c :: rest) = (false, c :: rest) := by
  unfold splitSign
  split
  · next heq => exact absurd (List.cons.inj heq).1 hminus
  · next heq => exact absurd (List.cons.inj heq).1 hplus
  · rfl

/-- Where a digit comes first, there is no sign to be split off. -/
theorem splitSign_of_isDigit {c : Char} (hc : c.isDigit = true) (rest : List Char) :
    splitSign (c :: rest) = (false, c :: rest) := by
  have hplain : c ≠ '-' ∧ c ≠ '+' := of_isDigit (p := fun c => c ≠ '-' ∧ c ≠ '+') (by decide) hc
  exact splitSign_of_ne hplain.1 hplain.2 rest

/-- Digits, at least one of them. -/
def AreDigits (text : List Char) : Prop := text ≠ [] ∧ ∀ c ∈ text, c.isDigit = true

/-- A number is written with digits only, and with one at least. -/
theorem areDigits_toDigits (n : Nat) : AreDigits (Nat.toDigits 10 n) :=
  ⟨Nat.toDigits_ne_nil, isDigit_of_mem_toDigits⟩

/-- Further digits may stand in front. -/
theorem AreDigits.append_left {text more : List Char} (h : AreDigits text)
    (hmore : ∀ d ∈ more, d.isDigit = true) : AreDigits (more ++ text) := by
  refine ⟨List.append_ne_nil_of_right_ne_nil _ h.1, ?_⟩
  rw [List.forall_mem_append]
  exact ⟨hmore, h.2⟩

theorem isDigit_of_mem_zeros {n : Nat} : ∀ c ∈ Layout.zeros n, c.isDigit = true := by
  intro c hc
  rw [List.eq_of_mem_replicate hc]
  rfl

/-! ## Numerals -/

/-- Digits that do not begin with a zero, at least one of them. -/
def AreProper (text : List Char) : Prop :=
  ∃ c rest, text = c :: rest ∧ c ≠ '0' ∧ ∀ d ∈ c :: rest, d.isDigit = true

/-- The digits before the point: a zero begins them only where it is alone. -/
def IsWhole (text : List Char) : Prop := text = ['0'] ∨ AreProper text

/-- Nothing, or a point with digits behind it. -/
def IsFraction (text : List Char) : Prop :=
  text = [] ∨ ∃ digits, text = '.' :: digits ∧ AreDigits digits

/-- Nothing, or an exponent, which may have a sign. -/
def IsExponent (text : List Char) : Prop :=
  text = [] ∨ ∃ sign digits, text = 'e' :: (sign ++ digits) ∧
    (sign = [] ∨ sign = ['+'] ∨ sign = ['-']) ∧ AreDigits digits

/-- A numeral without a sign. -/
def IsNumeral (text : List Char) : Prop :=
  ∃ whole fraction exponent, text = whole ++ (fraction ++ exponent) ∧
    IsWhole whole ∧ IsFraction fraction ∧ IsExponent exponent

/-- A numeral begins with a digit. -/
theorem IsNumeral.eq_cons {text : List Char} (h : IsNumeral text) :
    ∃ c tail, text = c :: tail ∧ c.isDigit = true := by
  obtain ⟨whole, fraction, exponent, rfl, rfl | ⟨c, rest, rfl, -, hdigits⟩, -, -⟩ := h
  · exact ⟨'0', _, rfl, rfl⟩
  · exact ⟨c, _, rfl, hdigits c (List.mem_cons_self ..)⟩

/-- Digits with a point between them. -/
theorem isNumeral_point {whole digits : List Char} (hwhole : IsWhole whole)
    (hdigits : AreDigits digits) : IsNumeral (whole ++ '.' :: digits) := by
  refine ⟨whole, '.' :: digits, [], ?_, hwhole, .inr ⟨digits, rfl, hdigits⟩, .inl rfl⟩
  rw [List.append_nil]

/-- A zero behind the point. -/
theorem areDigits_zero : AreDigits ['0'] := by
  refine ⟨List.cons_ne_nil _ _, fun c hc => ?_⟩
  rw [List.mem_singleton.mp hc]
  rfl

/-- No zero stands in front of a positive number. -/
theorem areProper_toDigits {n : Nat} (hn : 0 < n) : AreProper (Nat.toDigits 10 n) := by
  obtain ⟨c, rest, heq, hzero, -⟩ := toDigits_eq_cons hn
  exact ⟨c, rest, heq, hzero, heq ▸ isDigit_of_mem_toDigits⟩

/-- A number can stand in front of a point: zero is written alone. -/
theorem isWhole_toDigits (n : Nat) : IsWhole (Nat.toDigits 10 n) := by
  rcases Nat.eq_zero_or_pos n with rfl | hpos
  · exact .inl (Nat.toDigits_zero 10)
  · exact .inr (areProper_toDigits hpos)

/-- Proper digits are digits. -/
theorem AreProper.areDigits {text : List Char} (h : AreProper text) : AreDigits text := by
  obtain ⟨c, rest, rfl, -, hdigits⟩ := h
  exact ⟨List.cons_ne_nil c rest, hdigits⟩

/-- More digits may follow. -/
theorem AreProper.append {text more : List Char} (h : AreProper text)
    (hmore : ∀ d ∈ more, d.isDigit = true) : AreProper (text ++ more) := by
  obtain ⟨c, rest, rfl, hzero, hdigits⟩ := h
  refine ⟨c, rest ++ more, rfl, hzero, ?_⟩
  rw [← List.cons_append, List.forall_mem_append]
  exact ⟨hdigits, hmore⟩

/-- The first of them may stand alone. -/
theorem AreProper.take {text : List Char} (h : AreProper text) {n : Nat} (hn : 0 < n) :
    AreProper (text.take n) := by
  obtain ⟨c, rest, rfl, hzero, hdigits⟩ := h
  obtain ⟨n, rfl⟩ := Nat.exists_eq_add_one_of_ne_zero (Nat.ne_of_gt hn)
  refine ⟨c, rest.take n, List.take_succ_cons, hzero, fun d hd => hdigits d ?_⟩
  rw [← List.take_succ_cons] at hd
  exact List.mem_of_mem_take hd

/-! ## The shortest digits -/

section

variable {m : Nat}

/-- Zero is too far from a number that is not zero. -/
theorem Grid.holds_zero (hm : m ≠ 0) (q k : Int) : (Grid.at m q k).holds 0 = false := by
  have hunit : 0 < Nat.pow 2 (q - 2).toNat * Nat.pow 10 (-k).toNat :=
    Nat.mul_pos (Nat.pow_pos (by decide)) (Nat.pow_pos (by decide))
  have hlow : 0 < (Grid.at m q k).low := by
    refine Nat.mul_pos ?_ hunit
    split <;> omega
  unfold holds
  rw [Nat.zero_mul]
  -- whether or not the ends count, zero is below the lower one
  split
  all_goals
    rw [Bool.and_eq_false_iff, decide_eq_false_iff_not]
    left
    omega

/-- The point that is picked is not zero. -/
theorem Grid.pos_of_pick? (hm : m ≠ 0) {q k : Int} {n : Nat}
    (h : (Grid.at m q k).pick? = some n) : 0 < n := by
  have hzero := Grid.holds_zero hm q k
  unfold pick? at h
  generalize Grid.at m q k = g at h hzero
  generalize g.value / g.step = below at h
  dsimp only at h
  -- it is the point below, which is held, or the one above
  have hcases : (n = below ∧ g.holds below = true) ∨ n = below + 1 := by
    split at h
    · cases h
    · next hbelow _ => exact .inl ⟨(Option.some.inj h).symm, hbelow⟩
    · exact .inr (Option.some.inj h).symm
    · next hbelow _ =>
      split at h
      · exact .inl ⟨(Option.some.inj h).symm, hbelow⟩
      · exact .inr (Option.some.inj h).symm
  rcases hcases with ⟨rfl, hheld⟩ | rfl
  · refine Nat.pos_of_ne_zero fun hn => ?_
    rw [hn, hzero] at hheld
    cases hheld
  · exact Nat.succ_pos below

/-- The zeros at the end are not all of the digits. -/
theorem areProper_stripZeros {text : List Char} (h : AreProper text) :
    AreProper (stripZeros text) := by
  obtain ⟨c, rest, rfl, hzero, hdigits⟩ := h
  have hc : ¬(decide (c = '0')) = true := by simpa using hzero
  -- the first digit is no zero, so that it stays however many zeros are stripped
  have hstrip : stripZeros (c :: rest) = c :: stripZeros rest := by
    unfold stripZeros
    rw [List.reverse_cons, List.dropWhile_append]
    split
    · next hnil =>
      rw [List.isEmpty_iff] at hnil
      have hfirst : [c].dropWhile (· = '0') = [c] := List.dropWhile_cons_of_neg hc
      rw [hfirst, hnil]
      rfl
    · rw [List.reverse_append]
      rfl
  refine ⟨c, stripZeros rest, hstrip, hzero, ?_⟩
  intro d hd
  rcases List.mem_cons.mp hd with rfl | hrest
  · exact hdigits d (List.mem_cons_self ..)
  · refine hdigits d (List.mem_cons_of_mem _ ?_)
    exact List.mem_reverse.mp ((List.dropWhile_sublist _).mem (List.mem_reverse.mp hrest))

end

/-- **The shortest digits** of a number that is not zero do not begin with a zero. -/
theorem areProper_shortest {x : Float} (hx : significand x ≠ 0) :
    AreProper (Digits.shortest x).digits := by
  -- the number that is written out is the point of some grid, or the significand
  have hpos : ∀ pick : Option (Nat × Int), (∀ n k, pick = some (n, k) → 0 < n) →
      0 < (pick.getD (significand x, 0)).1 := by
    intro pick hpick
    cases pick with
    | none => exact Nat.pos_of_ne_zero hx
    | some found => exact hpick found.1 found.2 rfl
  refine areProper_stripZeros (areProper_toDigits (hpos _ fun n k hpick => ?_))
  obtain ⟨i, -, hi⟩ := List.exists_of_findSome?_eq_some hpick
  obtain ⟨point, hpoint, heq⟩ := Option.map_eq_some_iff.mp hi
  rw [← (Prod.mk.inj heq).1]
  exact Grid.pos_of_pick? hx hpoint

/-! ## Layouts -/

namespace Layout

variable {d : Digits}

/-- The layout without an exponent is a numeral, wherever the point falls. -/
theorem isNumeral_positional (h : AreProper d.digits) : IsNumeral (positional d) := by
  have hall : AreDigits d.digits := h.areDigits
  unfold positional
  split
  · -- only a zero stands before the point
    exact isNumeral_point (.inl rfl) (hall.append_left isDigit_of_mem_zeros)
  · dsimp only
    split
    · -- only a zero stands behind it
      exact isNumeral_point (.inr (h.append isDigit_of_mem_zeros)) areDigits_zero
    · next hpoint hlength =>
      have hpos : 0 < d.point.toNat := by omega
      refine isNumeral_point (.inr (h.take hpos)) ⟨?_, fun c hc => hall.2 c (List.mem_of_mem_drop hc)⟩
      rw [Ne, List.drop_eq_nil_iff]
      omega

/-- The layout with an exponent is a numeral, whichever way positive exponents are marked. -/
theorem isNumeral_scientific {l : Layout}
    (hsign : l.positiveExponent = "" ∨ l.positiveExponent = "+") (h : AreProper d.digits) :
    IsNumeral (l.scientific d) := by
  unfold scientific
  have hexponent : ∀ e : Int, IsExponent
      ('e' :: ((if e < 0 then ['-'] else l.positiveExponent.toList) ++ Nat.toDigits 10 e.natAbs)) := by
    intro e
    refine .inr ⟨_, _, rfl, ?_, areDigits_toDigits e.natAbs⟩
    split
    · exact .inr (.inr rfl)
    · rcases hsign with hnone | hplus
      · rw [hnone]
        exact .inl rfl
      · rw [hplus]
        exact .inr (.inl rfl)
  dsimp only
  -- a point is set only if there is a second digit
  split
  · next first second rest hdigits =>
    have hall := h.areDigits
    rw [hdigits] at h hall
    refine ⟨[first], '.' :: second :: rest, _, rfl, .inr (h.take Nat.one_pos), ?_, hexponent _⟩
    exact .inr ⟨_, rfl, List.cons_ne_nil _ _, fun c hc => hall.2 c (List.mem_cons_of_mem _ hc)⟩
  · exact ⟨d.digits, [], _, rfl, .inr h, .inl rfl, hexponent _⟩

end Layout

end Decimal

/-! ## Numbers -/

namespace Json

open Decimal

/-- **The text of a number** is a numeral, perhaps behind a minus sign. -/
theorem Number.exists_numeral (n : Number) : ∃ (negative : Bool) (numeral : List Char),
    IsNumeral numeral ∧ n.text = (if negative then ['-'] else []) ++ numeral := by
  cases n with
  | int n =>
    have hnumeral : IsNumeral (Nat.toDigits 10 n.natAbs) :=
      ⟨_, [], [], (List.append_nil _).symm, isWhole_toDigits n.natAbs, .inl rfl, .inl rfl⟩
    refine ⟨n < 0, _, hnumeral, ?_⟩
    rw [text, integerText]
    split <;> simp [*]
  | float x =>
    rw [text, Layout.render, String.toList_ofList]
    -- zero is written apart, since it has no shortest digits
    refine ⟨Binary64.isNegative x, _, ?_, rfl⟩
    split
    · exact isNumeral_point (.inl rfl) areDigits_zero
    · next hx =>
      dsimp only
      split
      · exact Layout.isNumeral_positional (areProper_shortest hx)
      · exact Layout.isNumeral_scientific (.inr rfl) (areProper_shortest hx)

end Json

end Mosaic
