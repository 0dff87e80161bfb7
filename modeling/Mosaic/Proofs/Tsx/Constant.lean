import Mosaic.Proofs.Literal.Escape
import Mosaic.Proofs.Literal.Integer
import Mosaic.Proofs.Literal.Tree
import Mosaic.Tsx.Syntax

/-!
# Values as expressions

The text of a JSON value is also an expression. Its tree says what is written: strings with
their escapes, numbers by their digits with a minus sign before them, members in pairs. The
literal that this tree is stands for the value.

* `Expr.ofJson`: the tree of the text of a value.
* `literal_ofJson`: the literal that it is.
* `evaluate_literal_ofJson`: the value of that.
-/

namespace Mosaic.Tsx

open Literal (Tree)

/-- A text as it is spelled between the quotes of a JSON string. -/
def escaped (text : String) : String := String.ofList (text.toList.flatMap Json.escapeChar)

theorem unescaped_escaped (text : String) : unescaped (escaped text) = text := by
  rw [unescaped, escaped, String.toList_ofList, Literal.unescape_escaped, String.ofList_toList]

namespace Expr

/-- The digits of an integer, behind a minus sign if it is negative. -/
def ofInteger (n : Int) : Expr :=
  let digits := Expr.number (String.ofList (Nat.toDigits 10 n.natAbs))
  if n < 0 then .unary "-" digits else digits

/-- The tree of a number. Only integers are looked at. -/
def ofNumber : Json.Number → Expr
  | .int n => ofInteger n
  | .float _ => .opaqueNode

mutual

/-- The tree of the text of a value. -/
def ofJson : Json → Expr
  | .null => .null
  | .bool b => .bool b
  | .number n => ofNumber n
  | .string s => .string (escaped s)
  | .array items => .array (ofItems items)
  | .object members => .object (ofMembers members)

def ofItems : List Json → List Expr
  | [] => []
  | item :: rest => ofJson item :: ofItems rest

def ofMembers : List (String × Json) → List Member
  | [] => []
  | (key, value) :: rest =>
    .pair (.string (escaped key)) (ofJson value) [] :: ofMembers rest

end

theorem ofItems_eq_map (items : List Json) : ofItems items = items.map ofJson := by
  induction items with
  | nil => rw [ofItems, List.map_nil]
  | cons item rest ih => rw [ofItems, ih, List.map_cons]

theorem ofMembers_eq_map (members : List (String × Json)) : ofMembers members =
    members.map fun member => .pair (.string (escaped member.1)) (ofJson member.2) [] := by
  induction members with
  | nil => rw [ofMembers, List.map_nil]
  | cons member rest ih => rw [ofMembers, ih, List.map_cons]

/-- The integers that a number literal keeps exactly. -/
def IsExact (n : Int) : Prop := n.natAbs < 2 ^ 63

instance (n : Int) : Decidable (IsExact n) := inferInstanceAs (Decidable (_ < _))

theorem literal_ofInteger {n : Int} (hn : IsExact n) :
    (ofInteger n).literal = .number (.int n) := by
  have htext : ∀ negative, Literal.readNumber?
      (String.ofList (Nat.toDigits 10 n.natAbs)).toList negative =
        some (.int (if negative then -(n.natAbs : Int) else n.natAbs)) := by
    intro negative
    rw [String.toList_ofList, Literal.readNumber?_toDigits hn]
  by_cases hneg : n < 0
  · have hvalue : -(n.natAbs : Int) = n := by omega
    have htree : ofInteger n = .unary "-" (.number (String.ofList (Nat.toDigits 10 n.natAbs))) :=
      if_pos hneg
    rw [htree, literal, signedLiteral, if_pos rfl, htext, if_pos rfl, hvalue]
    rfl
  · have hvalue : (n.natAbs : Int) = n := by omega
    have htree : ofInteger n = .number (String.ofList (Nat.toDigits 10 n.natAbs)) := if_neg hneg
    rw [htree, literal, htext, if_neg Bool.false_ne_true, hvalue]
    rfl

theorem isComment_ofJson (value : Json) : (ofJson value).isComment = false := by
  cases value with
  | null | bool | string | array | object => rw [ofJson]; rfl
  | number n =>
    rw [ofJson]
    cases n with
    | int n =>
      rw [ofNumber, ofInteger]
      split <;> rfl
    | float x => rfl

/-- An element that is no comment is one of the elements of an array. -/
theorem elementLiterals_cons {element : Expr} (h : element.isComment = false) (rest : List Expr) :
    elementLiterals (element :: rest) = element.literal :: elementLiterals rest := by
  cases element with
  | comment text => cases h
  | _ => rw [elementLiterals]; simp

theorem elementLiterals_ofItems {items : List Json}
    (h : ∀ item ∈ items, (ofJson item).literal = .ofJson item) :
    elementLiterals (ofItems items) = Tree.ofItems items := by
  induction items with
  | nil => rw [ofItems, elementLiterals, Tree.ofItems]
  | cons item rest ih =>
    rw [List.forall_mem_cons] at h
    rw [ofItems, elementLiterals_cons (isComment_ofJson item), h.1, ih h.2, Tree.ofItems]

theorem propertyLiterals_ofMembers {members : List (String × Json)}
    (h : ∀ member ∈ members, (ofJson member.2).literal = .ofJson member.2) :
    propertyLiterals (ofMembers members) = Tree.ofMembers members := by
  induction members with
  | nil => rw [ofMembers, propertyLiterals, Tree.ofMembers]
  | cons member rest ih =>
    obtain ⟨key, value⟩ := member
    rw [List.forall_mem_cons] at h
    have hkey : (Key.string (escaped key)).name? = some key := congrArg some (unescaped_escaped key)
    rw [ofMembers, propertyLiterals, hkey, Tree.ofMembers, ← ih h.2, ← h.1]

/-- **The tree of a value** is the literal of the value. -/
theorem literal_ofJson {value : Json} (h : Json.Integral IsExact value) :
    (ofJson value).literal = .ofJson value := by
  -- the induction is on the value; a number has to be exact, and all others are written as they are
  induction value using Json.value_induction with
  | null | bool => rw [ofJson, literal, Tree.ofJson]
  | number n =>
    cases h with
    | number hn => rw [ofJson, ofNumber, literal_ofInteger hn, Tree.ofJson]
  | string s => rw [ofJson, literal, unescaped_escaped, Tree.ofJson]
  | array items ih =>
    cases h with
    | array hitems =>
      have hliterals := elementLiterals_ofItems fun item hitem => ih item hitem (hitems item hitem)
      rw [ofJson, literal, hliterals, Tree.ofJson]
  | object members ih =>
    cases h with
    | object _ hmembers =>
      have hliterals := propertyLiterals_ofMembers fun member hmember =>
        ih member hmember (hmembers member hmember)
      rw [ofJson, literal, hliterals, Tree.ofJson]

/-- **What a value is written as** has this value, down to each character and the order of all
members. -/
theorem evaluate_literal_ofJson {value : Json} (h : Json.Integral IsExact value) :
    (ofJson value).literal.evaluate = value := by
  rw [literal_ofJson h, Tree.evaluate_ofJson h.unrepeated]

end Expr

end Mosaic.Tsx
