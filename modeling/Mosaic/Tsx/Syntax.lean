import Mosaic.Literal.Tree

/-!
# Syntax of TSX sources

The tree of a source as far as static literals go. Every construct that cannot be
part of one (functions, calls, elements, types, …) is `opaqueNode`, without its
parts. Comments are nodes of their own and stand wherever they were written.

* `Expr`, `Member`, `Key`: expressions.
* `Statement`, `Program`: the top level of a source.
* `Expr.literal`: the static literal that an expression is.
-/

namespace Mosaic.Tsx

/-- The ways to wrap an expression that leave its value alone. -/
inductive Wrapper
  | parentheses
  | asType
  | satisfiesType
  | nonNull
  deriving DecidableEq, Repr

mutual

inductive Expr
  /-- A string, as it is spelled between its quotes. -/
  | string (body : String)
  /-- A template, with its spelling up to the first substitution. -/
  | template (head : String)
  | number (text : String)
  | bool (value : Bool)
  | null
  /-- An operator before its operand, with the comments between them. -/
  | unary (operator : String) (operand : Expr) (comments : List String := [])
  | array (children : List Expr)
  | object (members : List Member)
  | wrapped (wrapper : Wrapper) (children : List Expr)
  | comment (text : String)
  | opaqueNode

inductive Member
  | pair (key : Key) (value : Expr) (comments : List String)
  | shorthand (name : String)
  | comment (text : String)
  | opaqueNode

inductive Key
  /-- A name or a number, which stand for their spelling. -/
  | name (text : String)
  | string (body : String)
  | computed (children : List Expr)
  | opaqueNode

end

instance : Inhabited Expr := ⟨.opaqueNode⟩
instance : Inhabited Member := ⟨.opaqueNode⟩
instance : Inhabited Key := ⟨.opaqueNode⟩

/-- One name of a variable declaration, unless it binds a pattern, and its value. -/
structure Declarator where
  name : Option String
  value : Option Expr

inductive Statement
  /-- An exported declaration of variables. -/
  | exportedVariables (declarators : List Declarator)
  | other

abbrev Program := List Statement

/-- The text that a string or template stands for. -/
def unescaped (body : String) : String := String.ofList (Literal.unescape body.toList)

def Expr.isComment : Expr → Bool
  | .comment _ => true
  | _ => false

/-- The first child that is not a comment. -/
def firstChild? (children : List Expr) : Option Expr := children.find? (!·.isComment)

/-- The name that a key stands for, if that can be told statically. -/
def Key.name? : Key → Option String
  | .name text => some text
  | .string body => some (unescaped body)
  | .computed children =>
    match firstChild? children with
    | some (.string body) => some (unescaped body)
    | _ => none
  | .opaqueNode => none

/-- The value of a number after a sign. -/
def signedLiteral (operator : String) (operand : Expr) : Literal.Tree :=
  match operand with
  | .number text =>
    let value? :=
      if operator = "-" then Literal.readNumber? text.toList true
      else if operator = "+" then Literal.readNumber? text.toList false
      else none
    (value?.map .number).getD .unsupported
  | _ => .unsupported

mutual

/-- The static literal that an expression is. -/
def Expr.literal : Expr → Literal.Tree
  | .string body => .string (unescaped body)
  | .template head => .string (unescaped head)
  | .number text => ((Literal.readNumber? text.toList false).map .number).getD .unsupported
  | .bool value => .bool value
  | .null => .null
  | .unary operator operand _ => signedLiteral operator operand
  | .array children => .array (elementLiterals children)
  | .object members => .object (propertyLiterals members)
  | .wrapped _ children => wrappedLiteral children
  | .comment _ => .unsupported
  | .opaqueNode => .unsupported

/-- The literals of the elements of an array. -/
def elementLiterals : List Expr → List Literal.Tree
  | [] => []
  | .comment _ :: rest => elementLiterals rest
  | child :: rest => child.literal :: elementLiterals rest

/-- The literal inside a wrapper: that of the first child that is not a comment. -/
def wrappedLiteral : List Expr → Literal.Tree
  | [] => .unsupported
  | .comment _ :: rest => wrappedLiteral rest
  | child :: _ => child.literal

/-- The properties with a static key. -/
def propertyLiterals : List Member → List (String × Option Literal.Tree)
  | [] => []
  | .pair key value _ :: rest =>
    match key.name? with
    | some name => (name, some value.literal) :: propertyLiterals rest
    | none => propertyLiterals rest
  | .shorthand name :: rest => (name, none) :: propertyLiterals rest
  | .comment _ :: rest => propertyLiterals rest
  | .opaqueNode :: rest => propertyLiterals rest

end

end Mosaic.Tsx
