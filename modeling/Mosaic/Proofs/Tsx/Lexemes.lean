import Mosaic.Proofs.Tsx.Constant
import Mosaic.Tsx.Lexer

/-!
# The lexemes of written values

At the front of a text stands the longest lexeme. Strings end at their closing quote; numbers and
words end at the first character that does not belong to them; the signs that JSON needs begin no
longer sign.

* `Front`: the lexeme at the front of a text, with nothing before it.
* `front_quote`, `front_digits`, `front_word`: the lexemes of scalars and names.
* `front_jsonSign`, `front_minus`, `front_equals`: single signs.
* `front_space`: a blank before a lexeme.
-/

namespace Mosaic.Tsx

/-- The token at the front of a text and what follows it, with neither a line end nor a comment
before it. -/
def Front (text : List Char) (token : Token) (rest : List Char) : Prop :=
  ∃ start, nextLexeme text = some { token, text := start, rest, trivia := {} }

/-! ## Blanks -/

/-- Neither blanks nor comments come before a character that begins neither. -/
theorem skipTrivia_cons {c : Char} (hslash : c ≠ '/') (hspace : isSpace c = false)
    (rest : List Char) : skipTrivia (c :: rest) = some ({}, c :: rest) := by
  rw [skipTrivia]
  unfold skipTriviaFrom
  dsimp only
  rw [if_neg hslash, hspace, if_neg Bool.false_ne_true]

/-- A blank before a lexeme. -/
theorem front_space {text rest : List Char} {token : Token} (h : Front text token rest) :
    Front (' ' :: text) token rest := by
  obtain ⟨start, hstart⟩ := h
  have hskip : skipTrivia (' ' :: text) = skipTrivia text := by
    rw [skipTrivia]
    conv => lhs; unfold skipTriviaFrom
    rfl
  refine ⟨start, ?_⟩
  rw [nextLexeme, hskip]
  exact hstart

/-- Something begins with any lexeme but the end. -/
theorem Front.exists_eq_cons {text rest : List Char} {token : Token} (h : Front text token rest)
    (htoken : token ≠ .ending) : ∃ c tail, text = c :: tail := by
  cases text with
  | nil =>
    obtain ⟨start, hstart⟩ := h
    cases hstart
    exact absurd rfl htoken
  | cons c tail => exact ⟨c, tail, rfl⟩

/-- The token that is read where no blanks and no comments stand is the first one. -/
theorem front_of_scanToken {c : Char} {tail rest : List Char} {token : Token}
    (hslash : c ≠ '/') (hspace : isSpace c = false)
    (hscan : scanToken (c :: tail) = some (token, rest)) : Front (c :: tail) token rest := by
  refine ⟨c :: tail, ?_⟩
  rw [nextLexeme, skipTrivia_cons hslash hspace]
  show (scanToken (c :: tail) >>= _) = _
  rw [hscan]
  rfl

/-- At the end of a text there is the end, and nothing after it. -/
theorem front_nil : Front [] .ending [] := ⟨[], rfl⟩

/-! ## Codes of characters -/

/-- The digits of a code are hexadecimal. -/
theorem isHexDigit_hexDigit : ∀ n < 16, isHexDigit (Json.hexDigit n) = true := by decide

/-- The code of a character after a backslash: four digits, or some between braces. -/
inductive Code : List Char → Prop
  | plain {a b c d : Char} (h : [a, b, c, d].all isHexDigit = true) : Code ['u', a, b, c, d]
  | braced {digits : List Char} (hnonempty : digits.isEmpty = false)
      (h : ∀ d ∈ digits, isHexDigit d = true) : Code ('u' :: '{' :: digits ++ ['}'])

/-- An escape takes as many characters as its code has. -/
theorem Code.escapeLength? {code : List Char} (h : Code code) (rest : List Char) :
    escapeLength? (code ++ rest) = some code.length := by
  cases h with
  | @plain a b c d h =>
    have hbrace : a ≠ '{' := by
      rintro rfl
      cases h
    show Tsx.escapeLength? ('u' :: a :: b :: c :: d :: rest) = some 5
    rw [Tsx.escapeLength?, if_pos h]
    exact hbrace
  | @braced digits hnonempty h =>
    have htake : (digits ++ '}' :: rest).takeWhile isHexDigit = digits := by
      rw [List.takeWhile_append_of_pos h, List.takeWhile_cons_of_neg (by decide), List.append_nil]
    have happend : 'u' :: '{' :: digits ++ ['}'] ++ rest = 'u' :: '{' :: (digits ++ '}' :: rest) := by
      simp
    rw [happend, Tsx.escapeLength?, htake, List.drop_left]
    rw [hnonempty, if_neg Bool.false_ne_true]
    simp

/-- An escape of a code is the code at its front. -/
theorem exists_code {rest : List Char} {length : Nat}
    (h : escapeLength? ('u' :: rest) = some length) :
    ∃ code more, 'u' :: rest = code ++ more ∧ Code code ∧ code.length = length := by
  unfold escapeLength? at h
  split at h
  case h_1 heq => cases heq
  case h_2 heq => cases (List.cons.inj heq).1
  case h_3 rest heq =>
    obtain ⟨-, rfl⟩ := List.cons.inj heq
    dsimp only at h
    split at h
    · next more hmore =>
      split at h
      · cases h
      · next hnonempty =>
        -- The text is cut into its digits, the closing brace and more.
        have hdigits : ∀ d ∈ rest.takeWhile isHexDigit, isHexDigit d = true :=
          List.all_eq_true.mp List.all_takeWhile
        have hdrop : (rest.takeWhile isHexDigit ++ rest.dropWhile isHexDigit).drop
            (rest.takeWhile isHexDigit).length = rest.dropWhile isHexDigit := List.drop_left
        rw [List.takeWhile_append_dropWhile, hmore] at hdrop
        have hrest := List.takeWhile_append_dropWhile (p := isHexDigit) (l := rest)
        rw [← hdrop] at hrest
        refine ⟨_, more, ?_, .braced (Bool.eq_false_iff.mpr hnonempty) hdigits, ?_⟩
        · rw [List.append_assoc, List.singleton_append]
          exact congrArg ('u' :: '{' :: ·) hrest.symm
        · rw [← Option.some.inj h]
          simp
    · cases h
  case h_4 a b c d more _ heq =>
    obtain ⟨-, rfl⟩ := List.cons.inj heq
    split at h
    · next hdigits => exact ⟨_, more, rfl, .plain hdigits, Option.some.inj h⟩
    · cases h
  case h_5 heq => cases (List.cons.inj heq).1
  case h_6 heq =>
    obtain ⟨rfl, rfl⟩ := List.cons.inj heq
    cases h

/-- The code lies in a text as a whole, so that a longer text has the same escape. -/
theorem escapeLength?_append {text : List Char} {length : Nat}
    (h : escapeLength? ('u' :: text) = some length) (rest : List Char) :
    length ≤ ('u' :: text).length ∧ escapeLength? ('u' :: text ++ rest) = some length := by
  obtain ⟨code, after, htext, hcode, rfl⟩ := exists_code h
  rw [htext, List.append_assoc, hcode.escapeLength?, List.length_append]
  exact ⟨Nat.le_add_right .., rfl⟩

/-! ## Strings -/

/-- The characters of an escape are passed over one by one. -/
theorem stringLengthFrom?_pending (body rest : List Char) :
    stringLengthFrom? '"' body.length (body ++ rest) =
      (stringLengthFrom? '"' 0 rest).map (· + body.length) := by
  induction body with
  | nil =>
    rw [List.nil_append, List.length_nil]
    exact (Option.map_id' ..).symm
  | cons c body ih =>
    rw [List.length_cons, List.cons_append, stringLengthFrom?, ih, Option.map_map]
    rfl

/-- An escape in a string is passed over as a whole. -/
theorem stringLengthFrom?_escape {body rest : List Char}
    (h : escapeLength? (body ++ rest) = some body.length) :
    stringLengthFrom? '"' 0 ('\\' :: (body ++ rest)) =
      (stringLengthFrom? '"' 0 rest).map (· + (body.length + 1)) := by
  rw [stringLengthFrom?, if_pos rfl, h]
  dsimp only
  rw [stringLengthFrom?_pending, Option.map_map]
  rfl

/-- Each written character belongs to the body of a string. -/
theorem stringLengthFrom?_escapeChar (c : Char) (rest : List Char) :
    stringLengthFrom? '"' 0 (Json.escapeChar c ++ rest) =
      (stringLengthFrom? '"' 0 rest).map (· + (Json.escapeChar c).length) := by
  have hshort : ∀ d, escapeLength? ([d] ++ rest) = some 1 →
      stringLengthFrom? '"' 0 ('\\' :: ([d] ++ rest)) =
        (stringLengthFrom? '"' 0 rest).map (· + 2) :=
    fun d hd => stringLengthFrom?_escape hd
  unfold Json.escapeChar
  split
  · exact hshort _ rfl
  split
  · exact hshort _ rfl
  split
  · exact hshort _ rfl
  split
  · exact hshort _ rfl
  split
  · exact hshort _ rfl
  split
  · exact hshort _ rfl
  split
  · exact hshort _ rfl
  split
  · next hcontrol =>
    -- What is left of the control characters is written as a code.
    have hdigits : ['0', '0', Json.hexDigit (c.toNat / 16), Json.hexDigit (c.toNat % 16)].all
        isHexDigit = true := by
      have hhigh := isHexDigit_hexDigit (c.toNat / 16) (by omega)
      have hlow := isHexDigit_hexDigit (c.toNat % 16) (by omega)
      have hzero : isHexDigit '0' = true := by decide
      simp [hhigh, hlow, hzero]
    exact stringLengthFrom?_escape ((Code.plain hdigits).escapeLength? rest)
  · next hquote hslash _ _ hline _ hreturn _ =>
    rw [List.singleton_append, stringLengthFrom?, if_neg hslash, if_neg hquote,
      if_neg (not_or.mpr ⟨hline, hreturn⟩)]
    rfl

/-- A string ends at its own quote, which is not one of those that are escaped. -/
theorem stringLengthFrom?_escaped (chars rest : List Char) :
    stringLengthFrom? '"' 0 (chars.flatMap Json.escapeChar ++ '"' :: rest) =
      some ((chars.flatMap Json.escapeChar).length + 1) := by
  induction chars with
  | nil => rw [List.flatMap_nil, List.nil_append, stringLengthFrom?]; rfl
  | cons c chars ih =>
    rw [List.flatMap_cons, List.append_assoc, stringLengthFrom?_escapeChar, ih, Option.map_some,
      List.length_append]
    congr 1
    omega

/-- **A quoted text** is one lexeme, with the escaped text as its body. -/
theorem front_quote (text : String) (rest : List Char) :
    Front (Json.quote text ++ rest) (.string (escaped text)) rest := by
  refine front_of_scanToken (by decide) (by decide) ?_
  show (scanString '"' (text.toList.flatMap Json.escapeChar ++ ['"'] ++ rest)).map _ = _
  rw [List.append_assoc, List.singleton_append, scanString, stringLengthFrom?_escaped,
    Option.map_some, Option.map_some, Nat.add_sub_cancel, List.take_left]
  have hdrop : (text.toList.flatMap Json.escapeChar ++ '"' :: rest).drop
      ((text.toList.flatMap Json.escapeChar).length + 1) = rest := by
    rw [List.drop_append, List.drop_of_length_le (Nat.le_succ _), Nat.add_sub_cancel_left]
    rfl
  rw [hdrop]
  rfl

/-! ## What stands behind a value -/

/-- A text that goes on behind a value, with a comma, a bracket or a semicolon. -/
def Closing (rest : List Char) : Prop :=
  ∃ c tail, rest = c :: tail ∧ (c = ',' ∨ c = ']' ∨ c = '}' ∨ c = ';')

/-- A text at whose front neither a number nor a word goes on. -/
def Separated (rest : List Char) : Prop :=
  ∃ c tail, rest = c :: tail ∧ isWordChar c = false ∧ c ≠ '.' ∧ c ≠ '_' ∧ c ≠ '\\'

/-- What ends a value also separates it from what follows. -/
theorem Closing.separated {rest : List Char} (h : Closing rest) : Separated rest := by
  obtain ⟨c, tail, rfl, rfl | rfl | rfl | rfl⟩ := h <;>
    exact ⟨_, tail, rfl, by decide⟩

/-- A blank separates what stands before it from what follows. -/
theorem separated_space (rest : List Char) : Separated (' ' :: rest) :=
  ⟨' ', rest, rfl, by decide⟩

theorem isDigit_of_not_isWordChar {c : Char} (h : isWordChar c = false) : c.isDigit = false := by
  rw [isWordChar, Bool.or_eq_false_iff] at h
  exact h.2

/-! ## Numbers -/

/-- There is no number without a first digit. -/
theorem digitsLength?_eq_none {isDigit : Char → Bool} {c : Char} (h : isDigit c = false)
    (rest : List Char) : digitsLength? isDigit (c :: rest) = none := by
  unfold digitsLength?
  rw [h]
  rfl

/-- A digit and what follows it, unless that is an underscore. -/
theorem digitsLength?_cons {isDigit : Char → Bool} {c : Char} (h : isDigit c = true)
    {rest : List Char} (hrest : ∀ tail, rest ≠ '_' :: tail) :
    digitsLength? isDigit (c :: rest) =
      some (((digitsLength? isDigit rest).map (· + 1)).getD 1) := by
  conv => lhs; unfold digitsLength?
  rw [h, Bool.not_true, if_neg Bool.false_ne_true]
  split
  · next tail => exact absurd rfl (hrest tail)
  · rfl

/-- What is separated has no fraction behind it. -/
theorem Separated.decimalLength? {rest : List Char} (h : Separated rest) :
    decimalLength? rest = none := by
  obtain ⟨c, tail, rfl, hc, -⟩ := h
  exact digitsLength?_eq_none (isDigit_of_not_isWordChar hc) tail

/-- All digits before a character that is none belong together. -/
theorem decimalLength?_digits {rest : List Char} (hrest : Separated rest) {c : Char}
    {digits : List Char} (h : ∀ d ∈ c :: digits, d.isDigit = true) :
    decimalLength? (c :: digits ++ rest) = some (digits.length + 1) := by
  -- digits may be set apart by underscores, of which there are none here
  induction digits generalizing c with
  | nil =>
    have hnone := hrest.decimalLength?
    obtain ⟨d, tail, rfl, -, -, hd, -⟩ := hrest
    have hnext : ∀ more, d :: tail ≠ '_' :: more := fun more heq => hd (List.cons.inj heq).1
    rw [decimalLength?] at hnone
    rw [List.cons_append, List.nil_append, decimalLength?,
      digitsLength?_cons (h c (List.mem_cons_self ..)) hnext, hnone]
    rfl
  | cons d digits ih =>
    rw [List.forall_mem_cons] at h
    have hnext : ∀ more, d :: digits ++ rest ≠ '_' :: more := by
      intro more heq
      have hd : d = '_' := (List.cons.inj heq).1
      have hdigit := h.2 d (List.mem_cons_self ..)
      rw [hd] at hdigit
      cases hdigit
    have hmore := ih h.2
    rw [decimalLength?] at hmore
    rw [List.cons_append, decimalLength?, digitsLength?_cons h.1 hnext, hmore]
    rfl

/-- Only a digit or a point begins a number. -/
theorem numberLength_eq_zero {c : Char} (hdigit : c.isDigit = false) (hpoint : c ≠ '.')
    (rest : List Char) : numberLength (c :: rest) = 0 := by
  -- all forms of numbers but the fraction start with a digit
  have hzero : c ≠ '0' := by
    rintro rfl
    cases hdigit
  have hdecimal : decimalLength? (c :: rest) = none := digitsLength?_eq_none hdigit rest
  have hwhole : wholeLength? (c :: rest) = none := by
    unfold wholeLength?
    split
    · next heq => exact absurd (List.cons.inj heq).1 hzero
    · have hhead : (c :: rest).head? ≠ some '0' := fun heq => hzero (Option.some.inj heq)
      show (if (c :: rest).head? = some '0' then none else decimalLength? (c :: rest)) = none
      rw [if_neg hhead, hdecimal]
  have hradix : radixLength? (c :: rest) = none := by
    unfold radixLength?
    split
    · next heq => exact absurd (List.cons.inj heq).1 hzero
    · rfl
  have hfraction : fractionalLength? (c :: rest) = none := by
    unfold fractionalLength?
    split
    · next heq => exact absurd (List.cons.inj heq).1 hpoint
    · rw [hwhole, Option.bind_none]
  rw [numberLength, hdecimal, hradix, hfraction]
  rfl

/-- What is no part of a word is none of the letters in numbers. -/
theorem ne_of_isWordChar {c d : Char} (hc : isWordChar c = false) (hd : isWordChar d = true) :
    c ≠ d := by
  rintro rfl
  rw [hd] at hc
  cases hc

/-- What is separated has no exponent behind it. -/
theorem Separated.exponentLength? {rest : List Char} (h : Separated rest) :
    exponentLength? rest = none := by
  obtain ⟨c, tail, rfl, hc, -⟩ := h
  have hlower : c ≠ 'e' := ne_of_isWordChar hc (by decide)
  have hupper : c ≠ 'E' := ne_of_isWordChar hc (by decide)
  rw [Tsx.exponentLength?, if_neg (not_or.mpr ⟨hlower, hupper⟩)]

theorem Separated.bigSuffixLength {rest : List Char} (h : Separated rest) :
    bigSuffixLength rest = 0 := by
  obtain ⟨c, tail, rfl, hc, -⟩ := h
  have hsuffix : c ≠ 'n' := ne_of_isWordChar hc (by decide)
  exact if_neg fun heq => hsuffix (Option.some.inj heq)

section

variable {c : Char} {digits rest : List Char} (hdigits : ∀ d ∈ c :: digits, d.isDigit = true)
  (hzero : c = '0' → digits = []) (hrest : Separated rest)

include hzero hrest in
/-- Decimal digits are no digits of another base. -/
theorem radixLength?_digits : radixLength? (c :: digits ++ rest) = none := by
  unfold radixLength?
  split
  · next prefixed more heq =>
    obtain ⟨rfl, htail⟩ := List.cons.inj heq
    obtain rfl := hzero rfl
    obtain ⟨d, tail, rfl, hd, -⟩ := hrest
    obtain ⟨rfl, rfl⟩ := List.cons.inj htail
    -- A zero stands alone, and what is behind it is no letter that announces a radix.
    have hx : d ≠ 'x' ∧ d ≠ 'X' := by
      constructor <;> exact ne_of_isWordChar hd (by decide)
    have ho : d ≠ 'o' ∧ d ≠ 'O' := by
      constructor <;> exact ne_of_isWordChar hd (by decide)
    have hb : d ≠ 'b' ∧ d ≠ 'B' := by
      constructor <;> exact ne_of_isWordChar hd (by decide)
    rw [if_neg (not_or.mpr hx), if_neg (not_or.mpr ho), if_neg (not_or.mpr hb)]
    rfl
  · rfl

include hdigits hzero hrest in
/-- Decimal digits are a whole number, and all of them belong to it. -/
theorem wholeLength?_digits : wholeLength? (c :: digits ++ rest) = some (digits.length + 1) := by
  unfold wholeLength?
  split
  · next more heq =>
    -- a zero, which stands alone
    obtain ⟨rfl, rfl⟩ := List.cons.inj heq
    obtain rfl := hzero rfl
    show some (((if rest.head? = some '0' then none else decimalLength? rest).map (· + 1)).getD 1) = _
    rw [hrest.decimalLength?, ite_self]
    rfl
  · next hfirst =>
    have hhead : (c :: digits ++ rest).head? ≠ some '0' :=
      fun heq => hfirst _ (congrArg (· :: (digits ++ rest)) (Option.some.inj heq))
    show (if (c :: digits ++ rest).head? = some '0' then none
      else decimalLength? (c :: digits ++ rest)) = _
    rw [if_neg hhead, decimalLength?_digits hrest hdigits]

include hdigits hzero hrest in
/-- They have no fraction. -/
theorem fractionalLength?_digits : fractionalLength? (c :: digits ++ rest) = none := by
  have hdrop : (c :: digits ++ rest).drop (digits.length + 1) = rest := List.drop_left
  unfold fractionalLength?
  split
  · next more heq =>
    have hpoint := hdigits c (List.mem_cons_self ..)
    rw [(List.cons.inj heq).1] at hpoint
    cases hpoint
  · -- Behind all the digits there would have to be a point or an exponent.
    rw [wholeLength?_digits hdigits hzero hrest, Option.bind_some, hdrop]
    split
    · next more =>
      obtain ⟨d, tail, heq, -, hpoint, -⟩ := hrest
      exact absurd (List.cons.inj heq).1.symm hpoint
    · rw [hrest.exponentLength?]
      rfl

include hdigits hzero hrest in
/-- All digits are the number at the front of a text. -/
theorem numberLength_digits : numberLength (c :: digits ++ rest) = digits.length + 1 := by
  have hdrop : (c :: digits ++ rest).drop (digits.length + 1) = rest := List.drop_left
  rw [numberLength, radixLength?_digits hzero hrest, fractionalLength?_digits hdigits hzero hrest,
    decimalLength?_digits hrest hdigits, Option.map_some, hdrop, hrest.bigSuffixLength]
  simp

end

/-! ## Tokens by their length -/

/-- The characters that begin a token with a rule of its own. -/
def openers : List Char := ['"', '\'', '\x60', '#']

section

variable {c : Char} {tail front rest : List Char}

/-- Where no string, template or private name begins, a number, a word or a sign does; a number
comes before a word, and a word before a sign. -/
theorem scanToken_of_not_mem (hc : c ∉ openers) :
    scanToken (c :: tail) =
      match numberLength (c :: tail), wordLength (c :: tail), signLength (c :: tail) with
      | 0, 0, 0 => none
      | 0, 0, length => some (cut length .sign (c :: tail))
      | 0, length, _ => some (cut length .word (c :: tail))
      | length, _, _ => some (cut length .number (c :: tail)) := by
  unfold scanToken
  split
  case h_1 heq => cases heq
  case h_6 => rfl
  -- the openers
  all_goals
    next heq =>
    rw [(List.cons.inj heq).1] at hc
    exact absurd (by decide) hc

/-- A number is read if nothing longer begins there. -/
theorem scanToken_number (hc : c ∉ openers)
    (hnumber : numberLength (c :: front ++ rest) = (c :: front).length) :
    scanToken (c :: front ++ rest) = some (.number (String.ofList (c :: front)), rest) := by
  rw [List.cons_append, scanToken_of_not_mem hc, ← List.cons_append, hnumber]
  show some (cut _ _ _) = _
  rw [cut, List.take_left, List.drop_left]

/-- A word is read where no number begins. -/
theorem scanToken_word (hc : c ∉ openers) (hnumber : numberLength (c :: front ++ rest) = 0)
    (hword : wordLength (c :: front ++ rest) = (c :: front).length) :
    scanToken (c :: front ++ rest) = some (.word (String.ofList (c :: front)), rest) := by
  rw [List.cons_append, scanToken_of_not_mem hc, ← List.cons_append, hnumber, hword]
  show some (cut _ _ _) = _
  rw [cut, List.take_left, List.drop_left]

/-- A sign is read where neither a number nor a word begins. -/
theorem scanToken_sign (hc : c ∉ openers) (hnumber : numberLength (c :: rest) = 0)
    (hword : wordLength (c :: rest) = 0) (hsign : signLength (c :: rest) = 1) :
    scanToken (c :: rest) = some (.sign (String.ofList [c]), rest) := by
  rw [scanToken_of_not_mem hc, hnumber, hword, hsign]
  rfl

end

/-- A digit begins neither blanks nor comments nor a token with a rule of its own. -/
theorem plain_of_isDigit {c : Char} (h : c.isDigit = true) :
    c ≠ '/' ∧ isSpace c = false ∧ c ∉ openers :=
  Decimal.of_isDigit (p := fun c => c ≠ '/' ∧ isSpace c = false ∧ c ∉ openers) (by decide) h

/-- **The digits of an integer** are one lexeme. -/
theorem front_digits (n : Nat) {rest : List Char} (hrest : Separated rest) :
    Front (Nat.toDigits 10 n ++ rest) (.number (String.ofList (Nat.toDigits 10 n))) rest := by
  obtain ⟨c, digits, heq, hc⟩ := Decimal.exists_toDigits_eq_cons n
  have hdigits : ∀ d ∈ c :: digits, d.isDigit = true := heq ▸ Decimal.isDigit_of_mem_toDigits
  have hzero : c = '0' → digits = [] := by
    rintro rfl
    exact Decimal.toDigits_of_zero_first heq
  obtain ⟨hslash, hspace, hopener⟩ := plain_of_isDigit hc
  rw [heq]
  exact front_of_scanToken hslash hspace
    (scanToken_number hopener (numberLength_digits hdigits hzero hrest))

/-! ## Words -/

/-- Whether a text is all of one word. -/
def IsWord (text : String) : Prop := text ≠ "" ∧ wordLength text.toList = text.toList.length

instance (text : String) : Decidable (IsWord text) := inferInstanceAs (Decidable (_ ∧ _))

/-- A word goes on to the end of its text, whatever separated text stands behind it. -/
theorem wordLengthFrom_append {text rest : List Char} (hrest : Separated rest) {pending : Nat}
    (hpending : pending ≤ text.length) (h : wordLengthFrom pending text = text.length) :
    wordLengthFrom pending (text ++ rest) = text.length := by
  -- A pending escape has to end within the text: what stands behind it could not end it.
  induction text generalizing pending with
  | nil =>
    obtain ⟨c, tail, rfl, hc, -, -, hslash⟩ := hrest
    obtain rfl : pending = 0 := Nat.le_zero.mp hpending
    have hescape : ¬(c = '\\' ∧ tail.head? = some 'u') := fun h => hslash h.1
    rw [List.nil_append, wordLengthFrom, if_neg hescape, hc, if_neg Bool.false_ne_true]
    rfl
  | cons c tail ih =>
    cases pending with
    | succ pending =>
      rw [wordLengthFrom] at h
      rw [List.cons_append, wordLengthFrom, ih (Nat.le_of_succ_le_succ hpending) (Nat.succ.inj h)]
      rfl
    | zero =>
      rw [wordLengthFrom] at h
      rw [List.cons_append, wordLengthFrom]
      by_cases hescape : c = '\\' ∧ tail.head? = some 'u'
      · rw [if_pos hescape] at h
        obtain ⟨more, rfl⟩ : ∃ more, tail = 'u' :: more := by
          cases tail with
          | nil => cases hescape.2
          | cons d more => exact ⟨more, congrArg (· :: more) (Option.some.inj hescape.2)⟩
        have hagain : c = '\\' ∧ ('u' :: more ++ rest).head? = some 'u' := ⟨hescape.1, rfl⟩
        rw [if_pos hagain]
        cases hlength : escapeLength? ('u' :: more) with
        | none =>
          rw [hlength] at h
          cases h
        | some length =>
          obtain ⟨hle, hlonger⟩ := escapeLength?_append hlength rest
          rw [hlength] at h
          rw [hlonger]
          exact congrArg (· + 1) (ih hle (Nat.succ.inj h))
      · rw [if_neg hescape] at h
        by_cases hc : isWordChar c = true
        · have hagain : ¬(c = '\\' ∧ (tail ++ rest).head? = some 'u') := by
            rintro ⟨rfl, -⟩
            cases hc
          rw [if_pos hc] at h
          rw [if_neg hagain, if_pos hc, ih (Nat.zero_le _) (Nat.succ.inj h)]
          rfl
        · rw [if_neg hc] at h
          cases h

/-- What begins a word begins neither blanks nor comments nor another token. -/
theorem plain_of_isWordStart {c : Char} (h : isWordStart c = true ∨ c = '\\') :
    c ≠ '/' ∧ isSpace c = false ∧ c ∉ openers ∧ c.isDigit = false ∧ c ≠ '.' := by
  rcases h with h | rfl
  · simp only [isWordStart, Bool.and_eq_true, Bool.not_eq_true', decide_eq_true_iff] at h
    obtain ⟨⟨⟨-, hspace⟩, hdigit⟩, hsign⟩ := h
    have hnone : ∀ d ∈ signs, c ≠ d := by
      rintro d hd rfl
      rw [← Bool.not_eq_true, List.contains_iff_mem] at hsign
      exact hsign hd
    have hopener : c ∉ openers := by
      intro hmem
      have hall : ∀ d ∈ openers, d ∈ signs := forall_mem_of_all (by decide)
      exact hnone c (hall c hmem) rfl
    exact ⟨hnone _ (by decide), hspace, hopener, hdigit, hnone _ (by decide)⟩
  · decide

/-- **A word** is one lexeme. -/
theorem front_word {text : String} (h : IsWord text) {rest : List Char} (hrest : Separated rest) :
    Front (text.toList ++ rest) (.word text) rest := by
  obtain ⟨hne, hlength⟩ := h
  obtain ⟨c, tail, heq⟩ : ∃ c tail, text.toList = c :: tail :=
    List.exists_cons_of_ne_nil fun hnil => hne (String.toList_inj.mp hnil)
  have htext : String.ofList (c :: tail) = text := by rw [← heq, String.ofList_toList]
  rw [heq, wordLength] at hlength
  -- the first character is one that a word may start with, else the word had no length
  split at hlength
  · next hc =>
    obtain ⟨hslash, hspace, hopener, hdigit, hpoint⟩ := plain_of_isWordStart hc
    have hword : wordLength (c :: tail ++ rest) = (c :: tail).length := by
      rw [List.cons_append, wordLength, if_pos hc, ← List.cons_append,
        wordLengthFrom_append hrest (Nat.zero_le _) hlength]
    rw [heq, ← htext]
    exact front_of_scanToken hslash hspace
      (scanToken_word hopener (numberLength_eq_zero hdigit hpoint _) hword)
  · cases hlength

/-! ## Signs -/

/-- A sign of one character is a lexeme, unless a longer one begins there. -/
theorem front_sign {c : Char} {rest : List Char}
    (hc : c ∈ signs ∧ c ∉ openers ∧ c ≠ '.' ∧ c ≠ '/' ∧ c ≠ '\\')
    (hlong : ∀ sign ∈ longSigns, sign.isPrefixOf (c :: rest) = false) :
    Front (c :: rest) (.sign (String.ofList [c])) rest := by
  obtain ⟨hsign, hopener, hpoint, hslash, hescape⟩ := hc
  have hall : ∀ d ∈ signs, isSpace d = false ∧ d.isDigit = false ∧ isWordStart d = false :=
    forall_mem_of_all (by decide)
  obtain ⟨hspace, hdigit, hstart⟩ := hall c hsign
  have hword : wordLength (c :: rest) = 0 := by
    have hnone : ¬(isWordStart c = true ∨ c = '\\') := by
      rw [hstart]
      exact not_or.mpr ⟨Bool.false_ne_true, hescape⟩
    rw [wordLength, if_neg hnone]
  have hfind : longSigns.find? (·.isPrefixOf (c :: rest)) = none :=
    List.find?_eq_none.mpr fun sign hmem => by rw [hlong sign hmem]; exact Bool.false_ne_true
  -- longer signs are tried first
  have hlength : signLength (c :: rest) = 1 := by
    have hcontains : signs.contains c = true := List.contains_iff_mem.mpr hsign
    unfold signLength
    dsimp only
    rw [hcontains, Bool.not_true, if_neg Bool.false_ne_true, hfind]
    exact ite_self 1
  exact front_of_scanToken hslash hspace
    (scanToken_sign hopener (numberLength_eq_zero hdigit hpoint rest) hword hlength)

/-- The signs of JSON, which begin no longer sign. -/
def jsonSigns : List Char := ['[', ']', '{', '}', ',', ':', ';']

/-- **A sign of JSON** is one lexeme, whatever comes next. -/
theorem front_jsonSign {c : Char} (hc : c ∈ jsonSigns) (rest : List Char) :
    Front (c :: rest) (.sign (String.ofList [c])) rest := by
  have hplain : ∀ d ∈ jsonSigns,
      d ∈ signs ∧ d ∉ openers ∧ d ≠ '.' ∧ d ≠ '/' ∧ d ≠ '\\' := forall_mem_of_all (by decide)
  have hfirst : ∀ d ∈ jsonSigns, ∀ sign ∈ longSigns, sign.head?.any (d != ·) = true :=
    forall_mem_of_all (by decide)
  refine front_sign (hplain c hc) fun sign hsign => ?_
  have hne := hfirst c hc sign hsign
  -- Longer signs begin with other characters.
  cases sign with
  | nil => cases hne
  | cons d more =>
    have hd : (d == c) = false := beq_eq_false_iff_ne.mpr (bne_iff_ne.mp hne).symm
    rw [List.isPrefixOf, hd, Bool.false_and]

/-- A minus sign before a digit is one lexeme. -/
theorem front_minus (n : Nat) (rest : List Char) :
    Front ('-' :: (Nat.toDigits 10 n ++ rest)) (.sign "-") (Nat.toDigits 10 n ++ rest) := by
  obtain ⟨c, digits, heq, hc⟩ := Decimal.exists_toDigits_eq_cons n
  have hlong : ∀ sign ∈ longSigns, sign.isPrefixOf ('-' :: (c :: digits ++ rest)) = false := by
    have hminus : '-' ≠ c := by
      rintro rfl
      cases hc
    have hequals : '=' ≠ c := by
      rintro rfl
      cases hc
    simp [longSigns, List.isPrefixOf, hminus, hequals]
  rw [heq]
  exact front_sign (by decide) hlong

/-- An equals sign before a blank is one lexeme. -/
theorem front_equals (rest : List Char) : Front ('=' :: ' ' :: rest) (.sign "=") (' ' :: rest) := by
  have hlong : ∀ sign ∈ longSigns, sign.isPrefixOf ('=' :: ' ' :: rest) = false := by
    simp [longSigns, List.isPrefixOf]
  exact front_sign (by decide) hlong

end Mosaic.Tsx
