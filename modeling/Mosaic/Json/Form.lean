import Mosaic.Json.Skip
import Mosaic.Time.Timestamp

/-!
# Typed JSON

A `Form` says how values of a type are read from JSON, either from a value or
directly from text. Reading from text stops at the first thing that is wrong,
whether the text is malformed or a value has the wrong form, and so gives up
before anything that comes later.

* `Form.string`, `Form.path`, `Form.count`, `Form.time`, `Form.value`: leaves.
* `Form.optional`, `Form.list`, `Form.dict`: containers.
* `Form.record`: named fields, from an object or from an array in their order.
-/

namespace Mosaic.Json

/-- How values of a type are read, from a value and from a text. -/
structure Form (α : Type) where
  ofValue : Json → Except Mismatch α
  /-- Reads from text; the number bounds the arrays and objects that may be opened. -/
  ofText : Nat → List Char → Except Fault (α × List Char)

namespace Form

variable {α β σ : Type}

/-- A mismatch located where `rest` begins. -/
def mismatchAt (mismatch : Mismatch) (rest : List Char) : Except Fault α :=
  .error { cause := .mismatch mismatch, rest, ahead := 0 }

/-- The mismatch of a value of another type. -/
def wrongType (found : Json) (expected : String) : Except Mismatch α :=
  .error (.invalidType (.of found) expected)

/-- A form for values that are neither arrays nor objects. -/
def scalar (expected : String) (read : Json → Except Mismatch α) : Form α where
  ofValue := read
  ofText _ text :=
    match skipBlanks text with
    | '[' :: rest => mismatchAt (.invalidType .sequence expected) ('[' :: rest)
    | '{' :: rest => mismatchAt (.invalidType .map expected) ('{' :: rest)
    | other => do
      let (value, rest) ← readValueWith none other
      match read value with
      | .ok a => .ok (a, rest)
      | .error mismatch => mismatchAt mismatch rest

/-- A text; `expected` is what is said to be wanted. -/
def text (expected : String) : Form String :=
  scalar expected fun
    | .string s => .ok s
    | other => wrongType other expected

def string : Form String := text "a string"

/-- A text that is taken for a path. -/
def path : Form String := text "path string"

/-- A natural number of 64 bits. -/
def count : Form Nat :=
  scalar "usize" fun
    | .number (.int n) =>
      if n < 0 then .error (.invalidValue (.number (.int n)) "usize") else .ok n.toNat
    | other => wrongType other "usize"

/-- A time as it is written in texts. -/
def time : Form Time.Timestamp :=
  let expected := "an RFC 3339 formatted date and time string"
  scalar expected fun
    | .string s => (Time.Timestamp.parse s.toList).mapError .invalidTime
    | other => wrongType other expected

/-- Any value. -/
def value : Form Json where
  ofValue := .ok
  ofText := readValue

/-- A form that is decided on the complete value. -/
def ofComplete (read : Json → Except Mismatch α) : Form α where
  ofValue := read
  ofText depth text := do
    let (v, rest) ← readValue depth text
    match read v with
    | .ok a => .ok (a, rest)
    | .error mismatch => mismatchAt mismatch rest

/-- One of a list of named choices: a string, or an object with that string as its
only key and null as its value. -/
def choice (choices : List (String × α)) : Form α :=
  let choose (name : String) : Except Mismatch α :=
    match choices.lookup name with
    | some a => .ok a
    | none => .error (.unknownVariant name (choices.map Prod.fst))
  ofComplete fun
    | .string name => choose name
    | .object [(name, .null)] => choose name
    | .object [(name, content)] => do
      let _ ← choose name
      wrongType content "unit"
    | .object _ => .error (.invalidValue .map "map with a single key")
    | other => wrongType other "string or map"

/-- A value of the form, or null. -/
def optional (form : Form α) : Form (Option α) where
  ofValue
    | .null => .ok none
    | other => (form.ofValue other).map some
  ofText depth text :=
    match skipBlanks text with
    | 'n' :: rest => (readWord ['u', 'l', 'l'] rest).map (none, ·)
    | other => (form.ofText depth other).map fun (a, rest) => (some a, rest)

/-- Reads a value of the wrong type, to report it. -/
def unexpected (expected : String) (text : List Char) : Except Fault (α × List Char) :=
  (scalar expected fun found => wrongType found expected).ofText 0 text

/-- An array, all of whose items have the form. -/
def list (form : Form α) : Form (List α) where
  ofValue
    | .array items => items.mapM form.ofValue
    | other => wrongType other "a sequence"
  ofText depth text :=
    match skipBlanks text with
    | '[' :: rest =>
      match depth with
      | 0 => fault .tooDeep ('[' :: rest) 1
      | depth + 1 => readItems (form.ofText depth) rest
    | other => unexpected "a sequence" other

/-- An object, all of whose members have the form. Of equal names the last one counts. -/
def dict (form : Form α) : Form (Dict α) where
  ofValue
    | .object members =>
      members.foldlM (fun d (key, v) => (form.ofValue v).map (d.insert key)) ∅
    | other => wrongType other "a map"
  ofText depth text :=
    match skipBlanks text with
    | '{' :: rest =>
      match depth with
      | 0 => fault .tooDeep ('{' :: rest) 1
      | depth + 1 =>
        readMembers
          (fun d key rest => do
            let (v, rest) ← form.ofText depth (← readColon rest)
            .ok (d.insert key v, rest))
          ∅ rest
    | other => unexpected "a map" other

/-! ## Records

The fields that have been read so far are kept in a draft `σ`. -/

/-- A named field of a record that is drafted in `σ`. -/
structure Field (σ : Type) where
  name : String
  isSet : σ → Bool
  /-- Whether the field may be missing at the end of an array. -/
  hasDefault : Bool
  ofValue : σ → Json → Except Mismatch σ
  ofText : Nat → σ → List Char → Except Fault (σ × List Char)

/-- The field that holds a value of the given form. -/
def Field.of (name : String) (form : Form β) (get : σ → Option β) (set : σ → β → σ)
    (hasDefault : Bool) : Field σ where
  name
  isSet draft := (get draft).isSome
  hasDefault
  ofValue draft v := (form.ofValue v).map (set draft)
  ofText depth draft text := (form.ofText depth text).map fun (b, rest) => (set draft b, rest)

/-- The value of a field that must be present. -/
def require (name : String) (value : Option β) : Except Mismatch β :=
  match value with
  | some b => .ok b
  | none => .error (.missingField name)

/-- A record: its name, its fields in order, and how a draft is completed. -/
structure Record (σ α : Type) where
  name : String
  fields : List (Field σ)
  start : σ
  finish : σ → Except Mismatch α

namespace Record

variable (r : Record σ α)

/-- What is said to be wanted where there is no record. -/
def expected : String := s!"struct {r.name}"

/-- What is said to be wanted where an array is too short. -/
def expectedLength : String :=
  let n := r.fields.length
  let noun := if n = 1 then "element" else "elements"
  s!"struct {r.name} with {n} {noun}"

/-- The field with a name. -/
def field? (key : String) : Option (Field σ) := r.fields.find? (·.name = key)

/-- Refuses a record that ends before the field at position `index`, unless that
field and all later ones have defaults. -/
def checkRest (index : Nat) : List (Field σ) → Except Mismatch Unit
  | [] => .ok ()
  | field :: rest =>
    if field.hasDefault then checkRest (index + 1) rest
    else .error (.invalidLength index r.expectedLength)

/-- Reads fields from the items of an array, in order. -/
def ofItems (index : Nat) (draft : σ) : List (Field σ) → List Json → Except Mismatch σ
  | fields, [] => (checkRest r index fields).map fun _ => draft
  | [], extra => .error (.invalidLength (index + extra.length) "fewer elements in array")
  | field :: fields, item :: items => do
    ofItems (index + 1) (← field.ofValue draft item) fields items

/-- The draft with one more member. Unknown names are passed over. -/
def ofMember (draft : σ) (member : String × Json) : Except Mismatch σ :=
  match r.field? member.1 with
  | some field => field.ofValue draft member.2
  | none => .ok draft

/-- Reads a record from a value. -/
def ofValue : Json → Except Mismatch α
  | .object members => do r.finish (← members.foldlM r.ofMember r.start)
  | .array items => do r.finish (← r.ofItems 0 r.start r.fields items)
  | other => wrongType other r.expected

/-- The text after the end of an object, if it is reached without reading on. -/
def afterClosing (text : List Char) : List Char :=
  match skipBlanks text with
  | '}' :: rest => rest
  | other => other

/-- Reads the member with a name from a text. A field must not occur twice. -/
def textMember (depth : Nat) (draft : σ) (key : String) (text : List Char) :
    Except Fault (σ × List Char) :=
  match r.field? key with
  | some field =>
    if field.isSet draft then mismatchAt (.duplicateField key) (afterClosing text)
    else do field.ofText depth draft (← readColon text)
  | none => do .ok (draft, ← skipValue (← readColon text))

/-- Where the next item of an array begins, if there is one. -/
def nextItem (isFirst : Bool) (text : List Char) : Except Fault (Bool × List Char) :=
  if isFirst then
    match skipBlanks text with
    | [] => fault .endOfList [] 1
    | ']' :: rest => .ok (false, rest)
    | item => .ok (true, item)
  else afterItem text

/-- The end of an array all of whose fields have been read. -/
def endOfItems (text : List Char) : Except Fault (List Char) :=
  match skipBlanks text with
  | [] => fault .endOfList [] 1
  | ']' :: rest => .ok rest
  | ',' :: rest =>
    match skipBlanks rest with
    | ']' :: rest => fault .trailingComma (']' :: rest) 1
    | other => fault .trailingCharacters other 1
  | other => fault .trailingCharacters other 1

/-- Reads fields from the text of an array, in order. -/
def textItems (depth index : Nat) (draft : σ) :
    List (Field σ) → List Char → Except Fault (σ × List Char)
  | [], text => (endOfItems text).map (draft, ·)
  | field :: fields, text => do
    match ← nextItem (index = 0) text with
    | (false, rest) =>
      match r.checkRest index (field :: fields) with
      | .ok () => .ok (draft, rest)
      | .error mismatch => mismatchAt mismatch rest
    | (true, item) =>
      let (draft, rest) ← field.ofText depth draft item
      textItems depth (index + 1) draft fields rest

/-- Completes a draft; what is missing is reported at the end of the record. -/
def finishAt (draft : σ) (rest : List Char) : Except Fault (α × List Char) :=
  match r.finish draft with
  | .ok a => .ok (a, rest)
  | .error mismatch => mismatchAt mismatch rest

/-- Reads a record from a text. -/
def ofText (depth : Nat) (text : List Char) : Except Fault (α × List Char) :=
  match skipBlanks text with
  | '{' :: rest =>
    match depth with
    | 0 => fault .tooDeep ('{' :: rest) 1
    | depth + 1 => do
      let (draft, rest) ← readMembers (r.textMember depth) r.start rest
      r.finishAt draft rest
  | '[' :: rest =>
    match depth with
    | 0 => fault .tooDeep ('[' :: rest) 1
    | depth + 1 => do
      let (draft, rest) ← r.textItems depth 0 r.start r.fields rest
      r.finishAt draft rest
  | other => unexpected r.expected other

end Record

/-- The form of a record. -/
def record (r : Record σ α) : Form α where
  ofValue := r.ofValue
  ofText := r.ofText

/-- Reads a whole text. -/
def parse (form : Form α) (text : String) : Except Error α :=
  parseWith (form.ofText nestingLimit) text

end Form

end Mosaic.Json
