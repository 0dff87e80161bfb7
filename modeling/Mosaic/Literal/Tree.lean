import Mosaic.Literal.Escape
import Mosaic.Literal.Number

/-!
# Static literals

A literal expression as a tree, and its value as JSON. Parts that have no static
value become null under a key and are left out of arrays; they never spoil the
rest.
-/

namespace Mosaic.Literal

/-- A literal expression. An object property may lack a value that can be told
statically. -/
inductive Tree
  | string (text : String)
  | number (value : Json.Number)
  | bool (value : Bool)
  | null
  | array (elements : List Tree)
  | object (properties : List (String × Option Tree))
  | unsupported
  deriving Inhabited

namespace Tree

def isUnsupported : Tree → Bool
  | unsupported => true
  | _ => false

mutual

/-- The value of a literal. -/
def evaluate : Tree → Json
  | string text => .string text
  | number value => .number value
  | bool value => .bool value
  | null => .null
  | unsupported => .null
  | array elements => .array (evaluateElements elements)
  | object properties => .object (evaluateProperties [] properties)

def evaluateElements : List Tree → List Json
  | [] => []
  | element :: rest =>
    if element.isUnsupported then evaluateElements rest
    else evaluate element :: evaluateElements rest

/-- Adds properties to the members before them; a repeated key changes its value. -/
def evaluateProperties (members : List (String × Json)) :
    List (String × Option Tree) → List (String × Json)
  | [] => members
  | (key, some value) :: rest => evaluateProperties (putEntry key (evaluate value) members) rest
  | (key, none) :: rest => evaluateProperties (putEntry key .null members) rest

end

end Tree

end Mosaic.Literal
