import Mosaic.Json.Reader

/-!
# Escapes in string literals

The text that the body of a string or template literal stands for. Every body has
a value: an escape that denotes no character gives the replacement character, and
a backslash at the end is dropped.
-/

namespace Mosaic.Literal

open Json (hexValue? isHighSurrogate isLowSurrogate pairCode)

def replacement : Char := '\ufffd'

/-- The code point `n`, if it is one. -/
def scalar? (n : Nat) : Option Char := if h : n.isValidChar then some (Char.ofNatAux n h) else none

/-- The number that hexadecimal digits denote, if it fits into 32 bits. One plus sign
may stand in front of the digits. -/
def hexNumber? (text : List Char) : Option Nat :=
  let digits := match text with
    | '+' :: rest => rest
    | other => other
  if digits.isEmpty then none
  else
    (digits.mapM hexValue?).bind fun values =>
      let n := values.foldl (fun n d => 16 * n + d) 0
      if n < Nat.pow 2 32 then some n else none

/-- The character with the given hexadecimal code. -/
def codeChar (text : List Char) : Char := ((hexNumber? text).bind scalar?).getD replacement

/-- The code in braces at the start of a text, and what follows the closing brace. -/
def splitBraces (text : List Char) : List Char × List Char :=
  (text.takeWhile (· ≠ '}'), (text.dropWhile (· ≠ '}')).drop 1)

/-- A low surrogate written as an escape at the start of a text. -/
def lowSurrogate? : List Char → Option (Nat × List Char)
  | '\\' :: 'u' :: rest =>
    (hexNumber? (rest.take 4)).bind fun n =>
      if isLowSurrogate n then some (n, rest.drop 4) else none
  | _ => none

/-- What a code of four digits stands for, together with a low surrogate after it. -/
def codeUnit (text : List Char) : Char × List Char :=
  let rest := text.drop 4
  match hexNumber? (text.take 4) with
  | none => (replacement, rest)
  | some n =>
    if isHighSurrogate n then
      match lowSurrogate? rest with
      | some (low, rest) => ((scalar? (pairCode n low)).getD replacement, rest)
      | none => (replacement, rest)
    else ((scalar? n).getD replacement, rest)

/-- What the text after a backslash begins with: the character it stands for, if any,
and the text that follows. -/
def decodeEscape : List Char → Option Char × List Char
  | [] => (none, [])
  | 'n' :: rest => (some '\n', rest)
  | 't' :: rest => (some '\t', rest)
  | 'r' :: rest => (some '\r', rest)
  | 'b' :: rest => (some '\x08', rest)
  | 'f' :: rest => (some '\x0c', rest)
  | 'v' :: rest => (some '\x0b', rest)
  | '0' :: rest => (some '\x00', rest)
  | '\r' :: '\n' :: rest => (none, rest)
  | '\r' :: rest | '\n' :: rest | '\u2028' :: rest | '\u2029' :: rest => (none, rest)
  | 'x' :: rest => (some (codeChar (rest.take 2)), rest.drop 2)
  | 'u' :: '{' :: rest => (some (codeChar (splitBraces rest).1), (splitBraces rest).2)
  | 'u' :: rest => (some (codeUnit rest).1, (codeUnit rest).2)
  | c :: rest => (some c, rest)

theorem length_splitBraces_le (text : List Char) :
    (splitBraces text).2.length ≤ text.length := by
  have h := (text.dropWhile_suffix (· ≠ '}')).length_le
  simp only [splitBraces, List.length_drop]
  omega

theorem length_codeUnit_le (text : List Char) : (codeUnit text).2.length ≤ text.length := by
  have drop_le : (text.drop 4).length ≤ text.length := by simp
  have low_le {rest : List Char} {n : Nat} {tail : List Char}
      (h : lowSurrogate? rest = some (n, tail)) : tail.length ≤ rest.length := by
    unfold lowSurrogate? at h
    split at h
    · obtain ⟨m, -, h⟩ := Option.bind_eq_some_iff.1 h
      split at h
      · cases h; simp; omega
      · cases h
    · cases h
  unfold codeUnit
  dsimp only
  -- the second half of a pair is taken off only where there is one
  split
  · exact drop_le
  · split
    · split
      · next h => exact Nat.le_trans (low_le h) drop_le
      · exact drop_le
    · exact drop_le

theorem length_decodeEscape_le (text : List Char) :
    (decodeEscape text).2.length ≤ text.length := by
  unfold decodeEscape
  split <;> simp only [List.length_cons, List.length_drop, List.length_nil] <;> try omega
  · have := length_splitBraces_le (by assumption)
    omega
  · have := length_codeUnit_le (by assumption)
    omega

/-- The text that the body of a literal stands for. -/
def unescape : List Char → List Char
  | [] => []
  | c :: rest =>
    if c = '\\' then
      match (decodeEscape rest).1 with
      | some decoded => decoded :: unescape (decodeEscape rest).2
      | none => unescape (decodeEscape rest).2
    else c :: unescape rest
termination_by text => text.length
decreasing_by
  all_goals
    have := length_decodeEscape_le rest
    simp only [List.length_cons]
    omega

end Mosaic.Literal
