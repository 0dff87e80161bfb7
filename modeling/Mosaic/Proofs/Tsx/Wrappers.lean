import Mathlib.Logic.Relation
import Mosaic.Proofs.Tsx.Constant

/-!
# Wrappers and comments in a constant

An expression may stand in parentheses, have a type asserted of it or be marked as not null, and
comments may stand between any two of its parts. None of this shows in the literal that it is: an
expression and what becomes of it by such edits are the same literal, so that every element of an
array is kept or left out as before and every member has the value that it had.

* `Frame`, `plug`: an expression inside others, as an element, a value, an operand or a key.
* `Edit`: a wrapper is put around an expression that stands for a value, or a comment is inserted
  anywhere.
* `Edit.alike`: an edit leaves the literal as it was.
* `literal_of_edits`: so do any number of edits.
-/

namespace Mosaic.Tsx

open Literal (Tree)

/-! ## What is read of the parts -/

/-- All parts of an array are its elements, but for the comments. -/
theorem elementLiterals_eq_map (children : List Expr) :
    elementLiterals children = (children.filter (!·.isComment)).map Expr.literal := by
  induction children with
  | nil => rw [elementLiterals, List.filter_nil, List.map_nil]
  | cons child rest ih =>
    cases hcomment : child.isComment with
    | false =>
      rw [Expr.elementLiterals_cons hcomment, ih, List.filter_cons_of_pos (by simp [hcomment]),
        List.map_cons]
    | true =>
      cases child with
      | comment text => rw [elementLiterals, ih, List.filter_cons_of_neg (by simp [hcomment])]
      | _ => cases hcomment

/-- A wrapper stands for the first of its parts that is no comment. -/
theorem wrappedLiteral_eq (children : List Expr) :
    wrappedLiteral children = ((firstChild? children).map Expr.literal).getD .unsupported := by
  induction children with
  | nil =>
    rw [wrappedLiteral]
    rfl
  | cons child rest ih =>
    cases child with
    | comment text =>
      rw [wrappedLiteral, ih]
      rfl
    | _ =>
      rw [wrappedLiteral]
      · rfl
      · exact fun _ => Expr.noConfusion

/-- The property that a member is, if it has a key that can be told statically. -/
def Member.property? : Member → Option (String × Option Tree)
  | .pair key value _ => key.name?.map fun name => (name, some value.literal)
  | .shorthand name => some (name, none)
  | .comment _ => none
  | .opaqueNode => none

/-- The properties of an object are those of its members that are any. -/
theorem propertyLiterals_eq_filterMap (members : List Member) :
    propertyLiterals members = members.filterMap Member.property? := by
  induction members with
  | nil => rw [propertyLiterals, List.filterMap_nil]
  | cons member rest ih =>
    rw [List.filterMap_cons]
    cases member with
    | pair key value comments =>
      rw [propertyLiterals, ih, Member.property?]
      cases key.name? <;> rfl
    | _ =>
      rw [propertyLiterals, ih]
      rfl

namespace Expr

/-- The spelling of a number without a sign. -/
def number? : Expr → Option String
  | .number text => some text
  | _ => none

/-- The spelling of a string. -/
def string? : Expr → Option String
  | .string body => some body
  | _ => none

end Expr

/-- Only a number has the text of one. -/
theorem eq_number_of_number? {e : Expr} {text : String} (h : e.number? = some text) :
    e = .number text := by
  cases e with
  | number spelled => exact congrArg Expr.number (Option.some.inj h)
  | _ => cases h

/-- A sign before what is no number is not supported. -/
theorem signedLiteral_of_number?_eq_none {e : Expr} (h : e.number? = none) (operator : String) :
    signedLiteral operator e = .unsupported := by
  cases e with
  | number spelled => cases h
  | _ => rfl

/-- A sign belongs to the number behind it, and to nothing else. -/
theorem signedLiteral_congr {e e' : Expr} (h : e'.number? = e.number?) (operator : String) :
    signedLiteral operator e' = signedLiteral operator e := by
  cases hnumber : e.number? with
  | some text => rw [eq_number_of_number? hnumber, eq_number_of_number? (h.trans hnumber)]
  | none =>
    rw [signedLiteral_of_number?_eq_none hnumber,
      signedLiteral_of_number?_eq_none (h.trans hnumber)]

/-- The name of a computed key is that of the string in its brackets. -/
theorem name?_computed (children : List Expr) :
    (Key.computed children).name? = ((firstChild? children).bind Expr.string?).map unescaped := by
  rw [Key.name?]
  cases firstChild? children with
  | none => rfl
  | some child => cases child <;> rfl

/-! ## Expressions that are read alike -/

/-- Where a value is expected an expression counts as the literal that it is, unless it is a
comment, which counts as nothing. -/
structure Alike (e e' : Expr) : Prop where
  literal : e'.literal = e.literal
  isComment : e'.isComment = e.isComment

/-- Behind a sign and in a key it also counts whether it is a number or a string. -/
structure Interchangeable (e e' : Expr) : Prop extends Alike e e' where
  number? : e'.number? = e.number?
  string? : e'.string? = e.string?

theorem Alike.refl (e : Expr) : Alike e e := ⟨rfl, rfl⟩

/-- Expressions that are alike to a third one are alike. -/
theorem Alike.trans {e₁ e₂ e₃ : Expr} (h : Alike e₁ e₂) (h' : Alike e₂ e₃) : Alike e₁ e₃ :=
  ⟨h'.literal.trans h.literal, h'.isComment.trans h.isComment⟩

section

variable {before after : List Expr} {e e' : Expr}

/-- An element may be exchanged for one that is alike. -/
theorem elementLiterals_congr (h : Alike e e') :
    elementLiterals (before ++ e' :: after) = elementLiterals (before ++ e :: after) := by
  simp only [elementLiterals_eq_map, List.filter_append, List.filter_cons, h.isComment]
  cases e.isComment <;> simp [h.literal]

/-- The first part that counts is the same, or it is the one that is exchanged. -/
theorem firstChild?_congr (h : e'.isComment = e.isComment) :
    firstChild? (before ++ e' :: after) = firstChild? (before ++ e :: after) ∨
      firstChild? (before ++ e :: after) = some e ∧
        firstChild? (before ++ e' :: after) = some e' := by
  simp only [firstChild?, List.find?_append, List.find?_cons, h]
  cases before.find? (!·.isComment) with
  | some child => exact .inl rfl
  | none =>
    cases e.isComment with
    | true => exact .inl rfl
    | false => exact .inr ⟨rfl, rfl⟩

/-- So may what is wrapped. -/
theorem wrappedLiteral_congr (h : Alike e e') :
    wrappedLiteral (before ++ e' :: after) = wrappedLiteral (before ++ e :: after) := by
  rw [wrappedLiteral_eq, wrappedLiteral_eq]
  rcases firstChild?_congr h.isComment with hsame | ⟨hfirst, hfirst'⟩
  · rw [hsame]
  · rw [hfirst, hfirst', Option.map_some, Option.map_some, h.literal]

/-- The string in a computed key may be exchanged for an interchangeable one. -/
theorem name?_congr (h : Interchangeable e e') :
    (Key.computed (before ++ e' :: after)).name? = (Key.computed (before ++ e :: after)).name? := by
  rw [name?_computed, name?_computed]
  rcases firstChild?_congr h.isComment with hsame | ⟨hfirst, hfirst'⟩
  · rw [hsame]
  · rw [hfirst, hfirst', Option.bind_some, Option.bind_some, h.string?]

/-- Nothing is read of a comment. -/
theorem elementLiterals_comment (text : String) :
    elementLiterals (before ++ .comment text :: after) = elementLiterals (before ++ after) := by
  simp [elementLiterals_eq_map, Expr.isComment]

/-- A comment is not the first child, wherever it stands. -/
theorem firstChild?_comment (text : String) :
    firstChild? (before ++ .comment text :: after) = firstChild? (before ++ after) := by
  simp [firstChild?, List.find?_append, Expr.isComment]

end

/-- A member may be exchanged for one with the same property. -/
theorem propertyLiterals_congr {before after : List Member} {member member' : Member}
    (h : member'.property? = member.property?) :
    propertyLiterals (before ++ member' :: after) =
      propertyLiterals (before ++ member :: after) := by
  simp only [propertyLiterals_eq_filterMap, List.filterMap_append, List.filterMap_cons, h]

/-! ## Expressions inside others -/

/-- An expression without one of the expressions that it consists of. -/
inductive Frame
  | element (before after : List Expr)
  | wrapped (wrapper : Wrapper) (before after : List Expr)
  | operand (operator : String) (comments : List String)
  | member (before : List Member) (key : Key) (comments : List String) (after : List Member)
  /-- The place in the brackets of a computed key. -/
  | computed (before : List Member) (front back : List Expr) (value : Expr)
    (comments : List String) (after : List Member)

namespace Frame

/-- The expression that a frame becomes with another one in its place. -/
def fill : Frame → Expr → Expr
  | element before after, e => .array (before ++ e :: after)
  | wrapped wrapper before after, e => .wrapped wrapper (before ++ e :: after)
  | operand operator comments, e => .unary operator e comments
  | member before key comments after, e => .object (before ++ .pair key e comments :: after)
  | computed before front back value comments after, e =>
    .object (before ++ .pair (.computed (front ++ e :: back)) value comments :: after)

/-- Whether an expression stands for a value there: as an element, as the value of a member, or
wrapped. Keys and the operand of a sign are told by their form. -/
def HoldsValue : Frame → Prop
  | element .. | wrapped .. | member .. => True
  | operand .. | computed .. => False

/-- Where a value is expected, expressions that are the same literal can be exchanged. -/
theorem interchangeable_of_alike {frame : Frame} (hframe : frame.HoldsValue) {e e' : Expr}
    (h : Alike e e') : Interchangeable (frame.fill e) (frame.fill e') := by
  suffices hliteral : (frame.fill e').literal = (frame.fill e).literal by
    cases frame with
    | operand | computed => exact hframe.elim
    | _ => exact ⟨⟨hliteral, rfl⟩, rfl, rfl⟩
  cases frame with
  | element before after => rw [fill, fill, Expr.literal, Expr.literal, elementLiterals_congr h]
  | wrapped wrapper before after =>
    rw [fill, fill, Expr.literal, Expr.literal, wrappedLiteral_congr h]
  | member before key comments after =>
    rw [fill, fill, Expr.literal, Expr.literal]
    refine congrArg Tree.object (propertyLiterals_congr ?_)
    rw [Member.property?, Member.property?, h.literal]
  | operand | computed => exact hframe.elim

/-- Expressions that have the same form as well can be exchanged anywhere. -/
theorem interchangeable (frame : Frame) {e e' : Expr} (h : Interchangeable e e') :
    Interchangeable (frame.fill e) (frame.fill e') := by
  cases frame with
  | operand operator comments =>
    refine ⟨⟨?_, rfl⟩, rfl, rfl⟩
    rw [fill, fill, Expr.literal, Expr.literal, signedLiteral_congr h.number?]
  | computed before front back value comments after =>
    refine ⟨⟨?_, rfl⟩, rfl, rfl⟩
    rw [fill, fill, Expr.literal, Expr.literal]
    refine congrArg Tree.object (propertyLiterals_congr ?_)
    rw [Member.property?, Member.property?, name?_congr h]
  | element | wrapped | member =>
    refine interchangeable_of_alike ?_ h.toAlike
    exact trivial

end Frame

/-- An expression in several frames, the outermost one first. -/
def plug (frames : List Frame) (e : Expr) : Expr := frames.foldr Frame.fill e

/-- **Interchangeable expressions** stay so within any frames. -/
theorem interchangeable_plug (frames : List Frame) {e e' : Expr} (h : Interchangeable e e') :
    Interchangeable (plug frames e) (plug frames e') := by
  induction frames with
  | nil => exact h
  | cons frame frames ih => exact frame.interchangeable ih

/-! ## Edits -/

/-- A comment is inserted among the parts of an expression, or among those of one of its members
or keys. -/
inductive Commented (text : String) : Expr → Expr → Prop
  | array (before after : List Expr) :
      Commented text (.array (before ++ after)) (.array (before ++ .comment text :: after))
  | wrapped (wrapper : Wrapper) (before after : List Expr) :
      Commented text (.wrapped wrapper (before ++ after))
        (.wrapped wrapper (before ++ .comment text :: after))
  | unary (operator : String) (operand : Expr) (before after : List String) :
      Commented text (.unary operator operand (before ++ after))
        (.unary operator operand (before ++ text :: after))
  | object (before after : List Member) :
      Commented text (.object (before ++ after)) (.object (before ++ .comment text :: after))
  | member (before : List Member) (key : Key) (value : Expr) (front back : List String)
      (after : List Member) :
      Commented text (.object (before ++ .pair key value (front ++ back) :: after))
        (.object (before ++ .pair key value (front ++ text :: back) :: after))
  | key (before : List Member) (front back : List Expr) (value : Expr) (comments : List String)
      (after : List Member) :
      Commented text
        (.object (before ++ .pair (.computed (front ++ back)) value comments :: after))
        (.object (before ++
          .pair (.computed (front ++ .comment text :: back)) value comments :: after))

/-- The constant or an expression in it that stands for a value is put under a wrapper, or a comment
is inserted. Whatever stands further outside does not matter. -/
inductive Edit : Expr → Expr → Prop
  | wrapWhole (wrapper : Wrapper) (e : Expr) :
      e.isComment = false → Edit e (.wrapped wrapper [e])
  | wrap (frames : List Frame) (frame : Frame) (wrapper : Wrapper) (e : Expr) :
      frame.HoldsValue → e.isComment = false →
      Edit (plug frames (frame.fill e)) (plug frames (frame.fill (.wrapped wrapper [e])))
  | comment (frames : List Frame) {text : String} {e e' : Expr} :
      Commented text e e' → Edit (plug frames e) (plug frames e')

/-- An expression with a comment among its children is interchangeable with the one without. -/
theorem Commented.interchangeable {text : String} {e e' : Expr} (h : Commented text e e') :
    Interchangeable e e' := by
  suffices hliteral : e'.literal = e.literal by
    cases h <;> exact ⟨⟨hliteral, rfl⟩, rfl, rfl⟩
  -- a comment is no element, no property and no child of what it stands in
  cases h with
  | array before after => rw [Expr.literal, Expr.literal, elementLiterals_comment]
  | wrapped wrapper before after =>
    rw [Expr.literal, Expr.literal, wrappedLiteral_eq, wrappedLiteral_eq, firstChild?_comment]
  | unary operator operand before after => rw [Expr.literal, Expr.literal]
  | object before after =>
    simp only [Expr.literal, propertyLiterals_eq_filterMap, List.filterMap_append,
      List.filterMap_cons, Member.property?]
  | member before key value front back after =>
    rw [Expr.literal, Expr.literal]
    exact congrArg Tree.object (propertyLiterals_congr rfl)
  | key before front back value comments after =>
    rw [Expr.literal, Expr.literal]
    refine congrArg Tree.object (propertyLiterals_congr ?_)
    rw [Member.property?, Member.property?, name?_computed, name?_computed, firstChild?_comment]

/-- A wrapped expression is alike to the one inside. -/
theorem alike_wrapped (wrapper : Wrapper) {e : Expr} (h : e.isComment = false) :
    Alike e (.wrapped wrapper [e]) := by
  have hfirst : firstChild? [e] = some e := by simp [firstChild?, h]
  refine ⟨?_, h.symm⟩
  rw [Expr.literal, wrappedLiteral_eq, hfirst, Option.map_some, Option.getD_some]

/-- **One edit** leaves the literal as it was. -/
theorem Edit.alike {e e' : Expr} (h : Edit e e') : Alike e e' := by
  cases h with
  | wrapWhole wrapper e hcomment => exact alike_wrapped wrapper hcomment
  | wrap frames frame wrapper e hframe hcomment =>
    -- what is around the value has the same form as before, so that it can stand anywhere
    have hfilled := Frame.interchangeable_of_alike hframe (alike_wrapped wrapper hcomment)
    exact (interchangeable_plug frames hfilled).toAlike
  | comment frames h => exact (interchangeable_plug frames h.interchangeable).toAlike

/-- **Any number of edits** leaves an expression alike. -/
theorem alike_of_edits {e e' : Expr} (h : Relation.ReflTransGen Edit e e') : Alike e e' := by
  induction h with
  | refl => exact .refl e
  | tail _ hedit ih => exact ih.trans hedit.alike

/-- **Wrappers and comments do not show.** However many wrappers are put around the expressions in
a constant that stand for values, and however many comments are inserted, it is the same literal:
nothing of it becomes null, is left out of an array or is kept there because of them. -/
theorem literal_of_edits {e e' : Expr} (h : Relation.ReflTransGen Edit e e') :
    e'.literal = e.literal ∧ e'.literal.evaluate = e.literal.evaluate := by
  have hliteral := (alike_of_edits h).literal
  exact ⟨hliteral, congrArg Tree.evaluate hliteral⟩

/-- The constant `{type: 'badge', limits: [-1, scale(2), 'a']}`. -/
def badge : Expr :=
  .object [.pair (.name "type") (.string "badge") [],
    .pair (.name "limits") (.array [.unary "-" (.number "1"), .opaqueNode, .string "a"]) []]

/-- The same, as
`({/* all */ type: 'badge', limits: [- /* least */ 1, (scale(2)), ('a' as const)!]})`. -/
def dressedBadge : Expr :=
  .wrapped .parentheses [.object [.comment "/* all */",
    .pair (.name "type") (.string "badge") [],
    .pair (.name "limits") (.array [.unary "-" (.number "1") ["/* least */"],
      .wrapped .parentheses [.opaqueNode],
      .wrapped .nonNull [.wrapped .parentheses [.wrapped .asType [.string "a"]]]]) []]]

/-- The literal of an expression with wrappers and comments. -/
theorem evaluate_badge : badge.literal.evaluate =
    .object [("type", .string "badge"), ("limits", .array [.number (.int (-1)), .string "a"])] := by
  have hone : (Expr.unary "-" (.number "1")).literal = .number (.int (-1)) := by
    have hinteger : Expr.ofInteger (-1) = .unary "-" (.number "1") := rfl
    rw [← hinteger, Expr.literal_ofInteger (by decide)]
  have hbadge : unescaped "badge" = "badge" := unescaped_escaped "badge"
  have ha : unescaped "a" = "a" := unescaped_escaped "a"
  rw [Expr.literal] at hone
  simp [badge, Expr.literal, propertyLiterals, elementLiterals, Key.name?, hone, hbadge, ha,
    Tree.evaluate, Tree.evaluateProperties, Tree.evaluateElements, Tree.isUnsupported, putEntry]

/-- The call is left out as before, and the number and the text are kept. -/
theorem literal_of_edits_dressedBadge :
    Relation.ReflTransGen Edit badge dressedBadge ∧
    dressedBadge.literal.evaluate = .object [("type", .string "badge"),
      ("limits", .array [.number (.int (-1)), .string "a"])] := by
  let type : Member := .pair (.name "type") (.string "badge") []
  let limits : Frame := .member [type] (.name "limits") [] []
  let one : Expr := .unary "-" (.number "1")
  let call : Expr := .wrapped .parentheses [.opaqueNode]
  have hedits : Relation.ReflTransGen Edit badge dressedBadge :=
    .tail (.tail (.tail (.tail (.tail (.tail (.tail .refl
      (.wrap [limits] (.element [one] [.string "a"]) .parentheses .opaqueNode trivial rfl))
      (.wrap [limits] (.element [one, call] []) .asType (.string "a") trivial rfl))
      (.wrap [limits] (.element [one, call] []) .parentheses _ trivial rfl))
      (.wrap [limits] (.element [one, call] []) .nonNull _ trivial rfl))
      (.comment [limits, .element [] [_, _]] (.unary "-" (.number "1") [] [])))
      (.comment [] (.object [] [_, _])))
      (.wrapWhole .parentheses _ rfl)
  refine ⟨hedits, ?_⟩
  rw [(literal_of_edits hedits).2, evaluate_badge]

end Mosaic.Tsx
