import Mosaic.Dict

/-!
# JSON values

A JSON document as a tree. Objects keep their members in the order in which
their keys first appeared; numbers keep whether they were written as an integer.
-/

namespace Mosaic

/-- A number: an integer of the signed or unsigned 64-bit range, or a finite
floating-point number. -/
inductive Json.Number
  | int (value : Int)
  | float (value : Float)
  deriving Inhabited

inductive Json
  | null
  | bool (value : Bool)
  | number (value : Json.Number)
  | string (text : String)
  | array (items : List Json)
  | object (members : List (String × Json))
  deriving Inhabited

namespace Json

/-- The kinds of JSON value. -/
inductive Kind
  | null
  | boolean
  | number
  | string
  | array
  | object
  deriving DecidableEq, Repr

def Kind.name : Kind → String
  | .null => "null"
  | .boolean => "boolean"
  | .number => "number"
  | .string => "string"
  | .array => "array"
  | .object => "object"

def kind : Json → Kind
  | .null => .null
  | .bool _ => .boolean
  | .number _ => .number
  | .string _ => .string
  | .array _ => .array
  | .object _ => .object

def asBool? : Json → Option Bool
  | .bool b => some b
  | _ => none

def asString? : Json → Option String
  | .string s => some s
  | _ => none

def asArray? : Json → Option (List Json)
  | .array items => some items
  | _ => none

def asObject? : Json → Option (List (String × Json))
  | .object members => some members
  | _ => none

/-- The value of a member; `none` for values that are not objects. -/
def get? (value : Json) (key : String) : Option Json :=
  value.asObject?.bind (·.lookup key)

/-- The strings among the items of an array, in order. -/
def stringsIn (items : List Json) : List String := items.filterMap asString?

/-- An object with the entries of a dictionary. -/
def ofDict (d : Dict Json) : Json := .object d.entries

end Json

end Mosaic
