import Mathlib.Data.List.Chain
import Mosaic.Proofs.Literal.Digit
import Mosaic.Proofs.Literal.Escape

/-!
# Bodies of string literals

The text between the quotes of a literal is a sequence of pieces, each of which stands for no or
one character. A piece is read by itself, whatever stands behind it, with two exceptions that
look ahead: a carriage return behind a backslash takes a newline with it, which no piece begins
with, and the code of a high surrogate takes the code of a low surrogate with it.

* `Piece`: the pieces of a body, with their text and what they stand for.
* `Piece.Apart`: the first of two pieces does not take the second with it.
* `lowSurrogate?_chars`: only the code of a low surrogate is taken for one.
* `unescape_chars_append`: a piece at the front of a body.
* `unescape_pieces`: a whole body.
-/

namespace Mosaic.Literal

open Json (isHighSurrogate isLowSurrogate pairCode)

/-! ## Pieces -/

/-- The control characters that have an escape of one letter. -/
inductive Control
  | newline
  | tab
  | carriageReturn
  | backspace
  | formFeed
  | verticalTab
  | null

/-- The letter that stands for a control character after a backslash. -/
def Control.letter : Control → Char
  | newline => 'n'
  | tab => 't'
  | carriageReturn => 'r'
  | backspace => 'b'
  | formFeed => 'f'
  | verticalTab => 'v'
  | null => '0'

/-- The control character itself. -/
def Control.char : Control → Char
  | newline => '\n'
  | tab => '\t'
  | carriageReturn => '\r'
  | backspace => '\x08'
  | formFeed => '\x0c'
  | verticalTab => '\x0b'
  | null => '\x00'

/-- The ways to end a line. -/
inductive LineEnd
  | carriageReturnNewline
  | carriageReturn
  | newline
  | lineSeparator
  | paragraphSeparator

/-- The characters of a line end; only the first of its kinds has two. -/
def LineEnd.chars : LineEnd → List Char
  | carriageReturnNewline => ['\r', '\n']
  | carriageReturn => ['\r']
  | newline => ['\n']
  | lineSeparator => ['\u2028']
  | paragraphSeparator => ['\u2029']

/-- The characters that mean something else than themselves behind a backslash. -/
def special : List Char :=
  ['n', 't', 'r', 'b', 'f', 'v', '0', 'x', 'u', '\r', '\n', '\u2028', '\u2029']

/-- A code of four digits. -/
structure CodeUnit where
  first : Digit 16
  second : Digit 16
  third : Digit 16
  fourth : Digit 16

namespace CodeUnit

/-- The digits of a code unit, from the front. -/
def digits (code : CodeUnit) : List (Digit 16) := [code.first, code.second, code.third, code.fourth]

def value (code : CodeUnit) : Nat := magnitude code.digits

/-- A code unit as it is written, with four digits. -/
def chars (code : CodeUnit) : List Char := '\\' :: 'u' :: code.digits.map Digit.char

/-- Whether a code unit is the first half of a pair. -/
def IsHigh (code : CodeUnit) : Prop := isHighSurrogate code.value = true

/-- Whether a code unit is the second half of a pair. -/
def IsLow (code : CodeUnit) : Prop := isLowSurrogate code.value = true

end CodeUnit

/-- A piece of the body of a literal. -/
inductive Piece
  | raw (c : Char) (plain : c ≠ '\\' ∧ c ≠ '\r' ∧ c ≠ '\n')
  | control (name : Control)
  /-- A character that stands for itself behind a backslash. -/
  | quoted (c : Char) (plain : c ∉ special)
  /-- The end of a line behind a backslash. -/
  | continued (lineEnd : LineEnd)
  | byte (first second : Digit 16)
  | unit (code : CodeUnit)
  | pair (high low : CodeUnit) (isHigh : high.IsHigh) (isLow : low.IsLow)
  /-- A code of any length in braces. -/
  | point (first : Digit 16) (more : List (Digit 16))

/-- The character with a code. Codes beyond all characters, and those of surrogates, give the
replacement character. -/
def charOfCode (n : Nat) : Char := if n.isValidChar then Char.ofNat n else replacement

namespace Piece

/-- The text of a piece. -/
def chars : Piece → List Char
  | raw c _ => [c]
  | control name => ['\\', name.letter]
  | quoted c _ => ['\\', c]
  | continued lineEnd => '\\' :: lineEnd.chars
  | byte first second => ['\\', 'x', first.char, second.char]
  | unit code => code.chars
  | pair high low _ _ => high.chars ++ low.chars
  | point first more => '\\' :: 'u' :: '{' :: ((first :: more).map Digit.char ++ ['}'])

/-- What a piece stands for. -/
def decoded : Piece → List Char
  | raw c _ => [c]
  | control name => [name.char]
  | quoted c _ => [c]
  | continued _ => []
  | byte first second => [charOfCode (magnitude [first, second])]
  | unit code => [charOfCode code.value]
  | pair high low _ _ => [Char.ofNat (pairCode high.value low.value)]
  | point first more => [charOfCode (magnitude (first :: more))]

/-- The code of a high surrogate, on its own. -/
def IsHigh : Piece → Prop
  | unit code => code.IsHigh
  | _ => False

/-- The code of a low surrogate, on its own. -/
def IsLow : Piece → Prop
  | unit code => code.IsLow
  | _ => False

/-- Two pieces that are not taken for one. -/
def Apart (piece next : Piece) : Prop := ¬(piece.IsHigh ∧ next.IsLow)

end Piece

/-! ## Codes -/

/-- A number that is no character is replaced. -/
theorem getD_scalar? (n : Nat) : (scalar? n).getD replacement = charOfCode n := by
  unfold scalar? charOfCode
  by_cases hvalid : n.isValidChar
  · rw [dif_pos hvalid, if_pos hvalid, Char.ofNat, dif_pos hvalid]
    rfl
  · rw [dif_neg hvalid, if_neg hvalid]
    rfl

/-- Digits stand for the character of their number, or for the replacement. -/
theorem codeChar_chars (first : Digit 16) (more : List (Digit 16)) :
    codeChar ((first :: more).map Digit.char) = charOfCode (magnitude (first :: more)) := by
  rw [codeChar, hexNumber?_chars]
  split
  · exact getD_scalar? _
  · -- a code that does not fit into 32 bits is beyond all characters
    next hlarge =>
    have hinvalid : ¬(magnitude (first :: more)).isValidChar := by
      unfold Nat.isValidChar
      omega
    exact (if_neg hinvalid).symm

namespace CodeUnit

variable (code : CodeUnit)

/-- Four digits stand for a number of 16 bits. -/
theorem value_lt : code.value < 2 ^ 16 := by
  simpa [value, digits] using magnitude_lt (by decide) code.digits

/-- The number of four digits is read as a whole. -/
theorem hexNumber?_digits : hexNumber? (code.digits.map Digit.char) = some code.value := by
  have hvalue : magnitude code.digits < 2 ^ 32 := by
    have hlt := code.value_lt
    unfold value at hlt
    omega
  rw [digits, hexNumber?_chars]
  exact if_pos hvalue

/-- No code unit is both halves of a pair. -/
theorem not_isLow_of_isHigh {code : CodeUnit} (h : code.IsHigh) : ¬code.IsLow := by
  unfold IsHigh isHighSurrogate at h
  unfold IsLow isLowSurrogate
  simp only [Bool.and_eq_true, decide_eq_true_eq] at h ⊢
  omega

/-- A surrogate is no character. -/
theorem charOfCode_of_isHigh {code : CodeUnit} (h : code.IsHigh) :
    charOfCode code.value = replacement := by
  have hinvalid : ¬code.value.isValidChar := by
    unfold IsHigh isHighSurrogate at h
    simp only [Bool.and_eq_true, decide_eq_true_eq] at h
    unfold Nat.isValidChar
    omega
  exact if_neg hinvalid

/-- A pair of surrogates is a character beyond the first plane. -/
theorem isValidChar_pairCode {high low : CodeUnit} (hhigh : high.IsHigh) (hlow : low.IsLow) :
    (pairCode high.value low.value).isValidChar := by
  unfold IsHigh isHighSurrogate at hhigh
  unfold IsLow isLowSurrogate at hlow
  simp only [Bool.and_eq_true, decide_eq_true_eq] at hhigh hlow
  unfold pairCode Nat.isValidChar
  omega

/-- A code unit that follows a first half is taken with it if it is a second half. -/
theorem lowSurrogate?_chars (rest : List Char) :
    lowSurrogate? (code.chars ++ rest) =
      if isLowSurrogate code.value then some (code.value, rest) else none := by
  have hdigits : lowSurrogate? (code.chars ++ rest) =
      (hexNumber? (code.digits.map Digit.char)).bind fun n =>
        if isLowSurrogate n then some (n, rest) else none := rfl
  rw [hdigits, hexNumber?_digits, Option.bind_some]

/-- A code on its own. Only a high surrogate asks for what follows. -/
theorem codeUnit_digits {rest : List Char} (h : code.IsHigh → lowSurrogate? rest = none) :
    codeUnit (code.digits.map Digit.char ++ rest) = (charOfCode code.value, rest) := by
  have htake : (code.digits.map Digit.char ++ rest).take 4 = code.digits.map Digit.char := rfl
  have hdrop : (code.digits.map Digit.char ++ rest).drop 4 = rest := rfl
  rw [codeUnit, htake, hdrop, hexNumber?_digits]
  by_cases hhigh : code.IsHigh
  · have hnone := h hhigh
    unfold IsHigh at hhigh
    simp only [hhigh, if_true, hnone]
    rw [charOfCode_of_isHigh hhigh]
  · unfold IsHigh at hhigh
    simp only [hhigh, if_false, getD_scalar?, Bool.false_eq_true]

/-- The codes of a high and a low surrogate. -/
theorem codeUnit_pair {high low : CodeUnit} (hhigh : high.IsHigh) (hlow : low.IsLow)
    (rest : List Char) :
    codeUnit (high.digits.map Digit.char ++ (low.chars ++ rest)) =
      (Char.ofNat (pairCode high.value low.value), rest) := by
  have htake : (high.digits.map Digit.char ++ (low.chars ++ rest)).take 4 =
      high.digits.map Digit.char := rfl
  have hdrop : (high.digits.map Digit.char ++ (low.chars ++ rest)).drop 4 =
      low.chars ++ rest := rfl
  have hvalid := isValidChar_pairCode hhigh hlow
  unfold IsHigh at hhigh
  unfold IsLow at hlow
  rw [codeUnit, htake, hdrop, hexNumber?_digits]
  simp only [hhigh, if_true, lowSurrogate?_chars, hlow, getD_scalar?, charOfCode, if_pos hvalid]

/-- A code unit is read together with the one that follows, if the two are a pair. -/
theorem decodeEscape_digits (rest : List Char) :
    decodeEscape ('u' :: (code.digits.map Digit.char ++ rest)) =
      (some (codeUnit (code.digits.map Digit.char ++ rest)).1,
        (codeUnit (code.digits.map Digit.char ++ rest)).2) := by
  have hbrace : code.first.char ≠ '{' := char_ne (by decide) (by decide) code.first
  rw [digits, List.map_cons, List.cons_append, decodeEscape]
  intro _ heq
  exact hbrace (List.cons.inj heq).1

end CodeUnit

/-- Digits in braces end at the closing brace. -/
theorem splitBraces_chars (digits : List (Digit 16)) (rest : List Char) :
    splitBraces (digits.map Digit.char ++ '}' :: rest) = (digits.map Digit.char, rest) := by
  have hbrace : ∀ c ∈ digits.map Digit.char, decide (c ≠ '}') = true := by
    intro c hc
    obtain ⟨d, -, rfl⟩ := List.mem_map.mp hc
    exact decide_eq_true (char_ne (by decide) (by decide) d)
  unfold splitBraces
  rw [List.takeWhile_append_of_pos hbrace, List.dropWhile_append_of_pos hbrace]
  simp

/-! ## One piece after the other -/

/-- An escape that stands for nothing. -/
theorem unescape_dropped {rest after : List Char} (h : decodeEscape rest = (none, after)) :
    unescape ('\\' :: rest) = unescape after := by
  rw [unescape, if_pos rfl, h]

/-- A character that means nothing special stands for itself after a backslash. -/
theorem decodeEscape_quoted {c : Char} (hc : c ∉ special) (rest : List Char) :
    decodeEscape (c :: rest) = (some c, rest) := by
  unfold decodeEscape
  split <;> simp_all [special]

/-- **A line end after a backslash** stands for nothing. The carriage return must not be followed by
a newline of its own. -/
theorem decodeEscape_lineEnd (lineEnd : LineEnd) {rest : List Char}
    (h : ∀ tail, rest ≠ '\n' :: tail) :
    decodeEscape (lineEnd.chars ++ rest) = (none, rest) := by
  cases lineEnd with
  | carriageReturn =>
    rw [LineEnd.chars, List.singleton_append, decodeEscape]
    exact h
  | carriageReturnNewline | newline | lineSeparator | paragraphSeparator => rfl

/-- There is no second half where no code unit begins. -/
theorem lowSurrogate?_eq_none {text : List Char} (h : ∀ tail, text ≠ '\\' :: 'u' :: tail) :
    lowSurrogate? text = none := by
  unfold lowSurrogate?
  split
  · next tail => exact absurd rfl (h tail)
  · rfl

namespace Piece

/-- **Only the code of a low surrogate** is taken for one. -/
theorem lowSurrogate?_chars {piece : Piece} (h : ¬piece.IsLow) (rest : List Char) :
    lowSurrogate? (piece.chars ++ rest) = none := by
  cases piece with
  | raw c plain => exact lowSurrogate?_eq_none fun tail heq => plain.1 (List.cons.inj heq).1
  | control name =>
    refine lowSurrogate?_eq_none fun tail heq => ?_
    cases name <;> simp [chars, Control.letter] at heq
  | quoted c plain =>
    refine lowSurrogate?_eq_none fun tail heq => plain ?_
    rw [(List.cons.inj (List.cons.inj heq).2).1]
    decide
  | continued lineEnd =>
    refine lowSurrogate?_eq_none fun tail heq => ?_
    cases lineEnd <;> simp [chars, LineEnd.chars] at heq
  | byte first second => exact lowSurrogate?_eq_none fun tail heq => by simp [chars] at heq
  | unit code =>
    rw [chars, code.lowSurrogate?_chars]
    exact if_neg h
  | pair high low isHigh isLow =>
    rw [chars, List.append_assoc, high.lowSurrogate?_chars]
    exact if_neg (CodeUnit.not_isLow_of_isHigh isHigh)
  | point first more =>
    -- the brace is no digit
    have hbrace : Json.hexValue? '{' = none := by decide
    simp [chars, lowSurrogate?, hexNumber?, hbrace]

/-- No piece begins with a newline. -/
theorem chars_append_ne_newline (piece : Piece) (rest tail : List Char) :
    piece.chars ++ rest ≠ '\n' :: tail := by
  cases piece with
  | raw c plain => exact fun heq => plain.2.2 (List.cons.inj heq).1
  | _ => simp [chars, CodeUnit.chars]

/-- **A piece at the front** of a body is read by itself, if nothing that it could take with it
follows. -/
theorem unescape_chars_append (piece : Piece) {rest : List Char}
    (hsurrogate : piece.IsHigh → lowSurrogate? rest = none)
    (hnewline : ∀ tail, rest ≠ '\n' :: tail) :
    unescape (piece.chars ++ rest) = piece.decoded ++ unescape rest := by
  -- each kind of piece has its own rule; only two of them look at what follows
  cases piece with
  | raw c plain => exact unescape_cons plain.1 rest
  | control name => cases name <;> exact unescape_decoded rfl
  | quoted c plain => exact unescape_decoded (decodeEscape_quoted plain rest)
  | continued lineEnd => exact unescape_dropped (decodeEscape_lineEnd lineEnd hnewline)
  | byte first second =>
    have hbyte : decodeEscape ('x' :: first.char :: second.char :: rest) =
        (some (codeChar ([first, second].map Digit.char)), rest) := rfl
    rw [codeChar_chars] at hbyte
    exact unescape_decoded hbyte
  | unit code =>
    have hunit := code.decodeEscape_digits rest
    rw [code.codeUnit_digits hsurrogate] at hunit
    exact unescape_decoded hunit
  | pair high low isHigh isLow =>
    have hpair := high.decodeEscape_digits (low.chars ++ rest)
    rw [CodeUnit.codeUnit_pair isHigh isLow] at hpair
    dsimp only at hpair
    rw [chars, decoded, List.append_assoc]
    exact unescape_decoded hpair
  | point first more =>
    have hpoint : decodeEscape ('u' :: '{' :: ((first :: more).map Digit.char ++ '}' :: rest)) =
        (some (codeChar _), _) := rfl
    rw [splitBraces_chars, codeChar_chars] at hpoint
    rw [chars, List.cons_append, List.cons_append, List.cons_append, List.append_assoc]
    exact unescape_decoded hpoint

end Piece

/-- **A body** stands for what its pieces stand for, one after the other, as long as no surrogates
stand side by side that would be taken for a pair. -/
theorem unescape_pieces {pieces : List Piece} (h : pieces.IsChain Piece.Apart) :
    unescape (pieces.flatMap Piece.chars) = pieces.flatMap Piece.decoded := by
  induction pieces with
  | nil => simp [unescape]
  | cons piece rest ih =>
    have hsurrogate : piece.IsHigh → lowSurrogate? (rest.flatMap Piece.chars) = none := by
      intro hhigh
      cases rest with
      | nil => rfl
      | cons next more =>
        have happart : piece.Apart next := (List.isChain_cons_cons.mp h).1
        rw [List.flatMap_cons]
        exact Piece.lowSurrogate?_chars (fun hlow => happart ⟨hhigh, hlow⟩) _
    -- no piece begins with a line feed
    have hnewline : ∀ tail, rest.flatMap Piece.chars ≠ '\n' :: tail := by
      intro tail
      cases rest with
      | nil => simp
      | cons next more =>
        rw [List.flatMap_cons]
        exact next.chars_append_ne_newline _ tail
    rw [List.flatMap_cons, piece.unescape_chars_append hsurrogate hnewline, ih h.tail,
      List.flatMap_cons]

/-- A high surrogate, as it may be written. -/
def highCode : CodeUnit :=
  ⟨.hexadecimal 13 true, .hexadecimal 8 false, .hexadecimal 3 false, .hexadecimal 13 false⟩

/-- The second half of the pair for a smiling face. -/
def lowCode : CodeUnit :=
  ⟨.hexadecimal 13 false, .hexadecimal 14 true, .hexadecimal 0 false, .hexadecimal 0 false⟩

theorem value_highCode : highCode.value = 0xd83d := by decide

theorem value_lowCode : lowCode.value = 0xde00 := by decide

theorem isHigh_highCode : highCode.IsHigh := by
  rw [CodeUnit.IsHigh, value_highCode]
  decide

theorem isLow_lowCode : lowCode.IsLow := by
  rw [CodeUnit.IsLow, value_lowCode]
  decide

/-- Surrogates alone and in a pair, with the end of a line between the halves of another pair. -/
def surrogateBody : List Piece :=
  [.unit highCode, .raw 'x' (by decide), .pair highCode lowCode isHigh_highCode isLow_lowCode,
    .unit highCode, .continued .carriageReturnNewline, .unit lowCode,
    .point (.hexadecimal 1 false)
      (.hexadecimal 1 false :: List.replicate 4 (.hexadecimal 0 false)), .control .null]

/-- A body with the two halves apart, together, and with a line end between them, and a number that
is no character. -/
theorem unescape_pieces_surrogateBody :
    surrogateBody.IsChain Piece.Apart ∧
      unescape "\\uD83dx\\uD83d\\udE00\\uD83d\\\r\n\\udE00\\u\x7b110000\x7d\\0".toList =
        "\ufffdx😀\ufffd\ufffd\ufffd\x00".toList := by
  have hapart : surrogateBody.IsChain Piece.Apart := by
    simp [surrogateBody, Piece.Apart, Piece.IsHigh, Piece.IsLow]
  have hchars : surrogateBody.flatMap Piece.chars =
      "\\uD83dx\\uD83d\\udE00\\uD83d\\\r\n\\udE00\\u\x7b110000\x7d\\0".toList := by decide
  have hdecoded : surrogateBody.flatMap Piece.decoded =
      "\ufffdx😀\ufffd\ufffd\ufffd\x00".toList := by decide
  have hbody := unescape_pieces hapart
  rw [hchars, hdecoded] at hbody
  exact ⟨hapart, hbody⟩

end Mosaic.Literal
