import Mosaic.Json.Printer
import Mosaic.Text.Quoted
import Mosaic.Time.Error

/-!
# What can be wrong with a JSON text or value

Two families of causes: the text is not JSON (`SyntaxCause`), or a value does not
have the form that its reader expects (`Mismatch`). A reader of text reports a
`Fault`, a cause together with the text that was still to be read; the line and
the column follow from that and the whole text.
-/

namespace Mosaic.Json

/-- Ways in which a text fails to be JSON. -/
inductive SyntaxCause
  | endOfValue
  | endOfString
  | endOfList
  | endOfObject
  | expectedValue
  | expectedWord
  | expectedColon
  | expectedListEnd
  | expectedObjectEnd
  | trailingComma
  | trailingCharacters
  | keyNotString
  | invalidNumber
  | numberOutOfRange
  | controlCharacter
  | invalidEscape
  | loneSurrogate
  | endOfSurrogatePair
  | tooDeep
  deriving DecidableEq, Repr

def SyntaxCause.message : SyntaxCause → String
  | .endOfValue => "EOF while parsing a value"
  | .endOfString => "EOF while parsing a string"
  | .endOfList => "EOF while parsing a list"
  | .endOfObject => "EOF while parsing an object"
  | .expectedValue => "expected value"
  | .expectedWord => "expected ident"
  | .expectedColon => "expected `:`"
  | .expectedListEnd => "expected `,` or `]`"
  | .expectedObjectEnd => "expected `,` or `\x7d`"
  | .trailingComma => "trailing comma"
  | .trailingCharacters => "trailing characters"
  | .keyNotString => "key must be a string"
  | .invalidNumber => "invalid number"
  | .numberOutOfRange => "number out of range"
  | .controlCharacter =>
    "control character (\\u0000-\\u001F) found while parsing a string"
  | .invalidEscape => "invalid escape"
  | .loneSurrogate => "lone leading surrogate in hex escape"
  | .endOfSurrogatePair => "unexpected end of hex escape"
  | .tooDeep => "recursion limit exceeded"

/-- What a reader found where it expected something else. -/
inductive Found
  | null
  | bool (value : Bool)
  | number (value : Number)
  | string (text : String)
  | sequence
  | map

def Found.of : Json → Found
  | .null => .null
  | .bool b => .bool b
  | .number n => .number n
  | .string s => .string s
  | .array _ => .sequence
  | .object _ => .map

def Found.describe : Found → String
  | .null => "null"
  | .bool true => "boolean `true`"
  | .bool false => "boolean `false`"
  | .number (.int n) => s!"integer `{String.ofList (integerText n)}`"
  | .number (.float x) => s!"floating point `{floatLayout.render x}`"
  | .string s => s!"string {Text.quoted s}"
  | .sequence => "sequence"
  | .map => "map"

/-- Ways in which a value does not have the expected form. -/
inductive Mismatch
  | invalidType (found : Found) (expected : String)
  | invalidValue (found : Found) (expected : String)
  | invalidLength (length : Nat) (expected : String)
  | missingField (name : String)
  | duplicateField (name : String)
  | unknownVariant (name : String) (choices : List String)
  | invalidTime (error : Time.Error)

def Mismatch.message : Mismatch → String
  | .invalidType found expected => s!"invalid type: {found.describe}, expected {expected}"
  | .invalidValue found expected => s!"invalid value: {found.describe}, expected {expected}"
  | .invalidLength length expected => s!"invalid length {length}, expected {expected}"
  | .missingField name => s!"missing field `{name}`"
  | .duplicateField name => s!"duplicate field `{name}`"
  | .unknownVariant name choices =>
    let listed := ", ".intercalate (choices.map fun choice => s!"`{choice}`")
    s!"unknown variant `{name}`, expected one of {listed}"
  | .invalidTime error => error.message

inductive Cause
  | malformed (cause : SyntaxCause)
  | mismatch (mismatch : Mismatch)

def Cause.message : Cause → String
  | .malformed c => c.message
  | .mismatch m => m.message

/-- A cause, located `ahead` bytes beyond the point where `rest` was still to be
read. -/
structure Fault where
  cause : Cause
  rest : List Char
  ahead : Nat

/-- A place in a text: the line, counted from one, and the number of bytes between
the start of that line and the place. -/
structure Position where
  line : Nat
  column : Nat
  deriving DecidableEq, Repr

namespace Position

def start : Position := ⟨1, 0⟩

def step (p : Position) (c : Char) : Position :=
  if c = '\n' then ⟨p.line + 1, 0⟩ else ⟨p.line, p.column + c.utf8Size⟩

/-- The place at the end of a text that begins at `p`. -/
def advance (p : Position) (text : List Char) : Position := text.foldl step p

/-- The place `bytes` bytes further on, which may lie inside a character, or at
the end of a shorter text. -/
def advanceBytes (p : Position) : (bytes : Nat) → List Char → Position
  | 0, _ | _, [] => p
  | bytes + 1, c :: rest =>
    if c.utf8Size ≤ bytes + 1 then advanceBytes (p.step c) (bytes + 1 - c.utf8Size) rest
    else ⟨p.line, p.column + (bytes + 1)⟩
termination_by _ text => text.length

end Position

/-- A cause and its place, as reported to the outside. -/
structure Error where
  cause : Cause
  position : Position

/-- Where a fault that arose while reading `text` lies. -/
def Fault.locate (fault : Fault) (text : List Char) : Error :=
  let consumed := text.take (text.length - fault.rest.length)
  { cause := fault.cause
    position := (Position.start.advance consumed).advanceBytes fault.ahead fault.rest }

def Error.message (e : Error) : String :=
  s!"{e.cause.message} at line {e.position.line} column {e.position.column}"

end Mosaic.Json
