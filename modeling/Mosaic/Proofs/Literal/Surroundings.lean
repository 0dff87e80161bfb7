import Mosaic.Proofs.Literal.Tree
import Mosaic.Proofs.Merged

/-!
# What stands around a part of a literal

A part of a literal stands in an array or under a key, this array or object in another one, and so
on. The value of the whole is put together from the value of the part and from what stands around
it, which does not depend on the part. A part without a value leaves a gap in an array and null
under a key, and everything around it stays as it is.

* `Frame`, `plug`: an array or object around a part, and a part in several of them.
* `Surrounding`, `embed`: the same for values; the part may be missing.
* `evaluate_fill`: one array or object.
* `evaluate_plug`: parts at any depth.
-/

namespace Mosaic.Literal

namespace Tree

/-- The value of a part, if it has one that can be told statically. -/
def value? (part : Tree) : Option Json := if part.isUnsupported then none else some part.evaluate

/-- There is one tree that stands for what is not supported. -/
theorem isUnsupported_iff {t : Tree} : t.isUnsupported = true ↔ t = .unsupported := by
  cases t <;> simp [isUnsupported]

/-- A missing value counts as null, and this is also what the tree is evaluated to. -/
theorem getD_value? (t : Tree) : t.value?.getD .null = t.evaluate := by
  unfold value?
  split
  · next h => rw [isUnsupported_iff.mp h, evaluate, Option.getD_none]
  · rfl

/-! ## Elements -/

/-- Elements that are not supported leave no gap in the array. -/
theorem evaluateElements_eq_map (elements : List Tree) :
    evaluateElements elements =
      (elements.filter fun element => !element.isUnsupported).map evaluate := by
  induction elements with
  | nil => rw [evaluateElements, List.filter_nil, List.map_nil]
  | cons element rest ih =>
    rw [evaluateElements, List.filter_cons, ih]
    cases element.isUnsupported <;> rfl

/-- Elements are evaluated one after the other. -/
theorem evaluateElements_append (elements rest : List Tree) :
    evaluateElements (elements ++ rest) = evaluateElements elements ++ evaluateElements rest := by
  simp only [evaluateElements_eq_map, List.filter_append, List.map_append]

theorem evaluateElements_cons (element : Tree) (rest : List Tree) :
    evaluateElements (element :: rest) = element.value?.toList ++ evaluateElements rest := by
  rw [evaluateElements, value?]
  split <;> rfl

/-! ## Properties -/

/-- The value of a property, which may be missing. -/
def memberValue (part? : Option Tree) : Json := (part?.map evaluate).getD .null

/-- The members that properties are, one after the other and with all repetitions. -/
def memberValues (properties : List (String × Option Tree)) : List (String × Json) :=
  properties.map fun property => (property.1, memberValue property.2)

/-- Every property gives a member, even one without a value. -/
theorem map_fst_memberValues (properties : List (String × Option Tree)) :
    (memberValues properties).map Prod.fst = properties.map Prod.fst := by
  rw [memberValues, List.map_map]
  rfl

/-- An object is filled from its properties from left to right, each overriding those before. -/
theorem evaluateProperties_eq (members : List (String × Json))
    (properties : List (String × Option Tree)) :
    evaluateProperties members properties = putEntries members (memberValues properties) := by
  induction properties generalizing members with
  | nil =>
    rw [evaluateProperties]
    rfl
  | cons property rest ih =>
    obtain ⟨key, part?⟩ := property
    cases part? with
    | none =>
      rw [evaluateProperties, ih]
      rfl
    | some part =>
      rw [evaluateProperties, ih]
      rfl

/-- An object has each key once, however often its properties repeat it. -/
theorem nodup_keys_evaluateProperties (properties : List (String × Option Tree)) :
    ((evaluateProperties [] properties).map Prod.fst).Nodup := by
  rw [evaluateProperties_eq]
  exact nodup_keys_putEntries _ List.nodup_nil

/-- A property gives its value to the member with its key, unless a later one has the same key. -/
theorem evaluateProperties_append_cons (before : List (String × Option Tree)) (key : String)
    (part : Tree) (after : List (String × Option Tree)) :
    evaluateProperties [] (before ++ (key, some part) :: after) =
      if key ∈ after.map Prod.fst then evaluateProperties [] (before ++ (key, none) :: after)
      else (evaluateProperties [] (before ++ (key, none) :: after)).map fun member =>
        if member.1 = key then (key, part.evaluate) else member := by
  have hsplit : ∀ part?, evaluateProperties [] (before ++ (key, part?) :: after) =
      putEntries (putEntry key (memberValue part?) (evaluateProperties [] before))
        (memberValues after) := by
    intro part?
    rw [evaluateProperties_eq, memberValues, List.map_append, putEntries_append,
      evaluateProperties_eq]
    rfl
  -- without its value the property already has its member
  have hmem : key ∈ (putEntry key .null (evaluateProperties [] before)).map Prod.fst :=
    lookup_isSome_iff_mem_keys.mp (by rw [lookup_putEntry_self]; rfl)
  have hput := putEntries_putEntry part.evaluate (memberValues after) hmem
  rw [putEntry_putEntry, map_fst_memberValues] at hput
  have hmissing : evaluateProperties [] (before ++ (key, none) :: after) =
      putEntries (putEntry key .null (evaluateProperties [] before)) (memberValues after) :=
    hsplit none
  have hgiven : evaluateProperties [] (before ++ (key, some part) :: after) =
      putEntries (putEntry key part.evaluate (evaluateProperties [] before))
        (memberValues after) :=
    hsplit (some part)
  have hkeys := nodup_keys_evaluateProperties (before ++ (key, none) :: after)
  rw [hmissing] at hkeys
  rw [hgiven, hput, hmissing, putEntry_eq_map part.evaluate (mem_keys_putEntries _ hmem) hkeys]

end Tree

/-! ## Frames -/

/-- An array or object without one of its parts. -/
inductive Frame
  | element (before after : List Tree)
  | property (before : List (String × Option Tree)) (key : String)
    (after : List (String × Option Tree))

/-- The array or object with a part in the free place. -/
def Frame.fill : Frame → Tree → Tree
  | element before after, part => .array (before ++ part :: after)
  | property before key after, part => .object (before ++ (key, some part) :: after)

/-- A part in several frames, the outermost one first. -/
def plug (frames : List Frame) (part : Tree) : Tree := frames.foldr Frame.fill part

/-- The value of an array or object without that of one of its parts. -/
inductive Surrounding
  | items (before after : List Json)
  | member (members : List (String × Json)) (key : String)
  /-- A later property has the same key, so that the part does not show. -/
  | overwritten (members : List (String × Json))

/-- The value with that of the part in its place; an element without a value takes up no place. -/
def Surrounding.fill : Surrounding → Option Json → Json
  | items before after, value? => .array (before ++ value?.toList ++ after)
  | member members key, value? =>
    .object (members.map fun member =>
      if member.1 = key then (key, value?.getD .null) else member)
  | overwritten members, _ => .object members

/-- A value in what surrounds it, the outermost first. Arrays and objects are never missing. -/
def embed (surroundings : List Surrounding) (value? : Option Json) : Option Json :=
  surroundings.foldr (fun surrounding value? => some (surrounding.fill value?)) value?

/-- What stands around a part, told from the other parts alone. -/
def Frame.surrounding : Frame → Surrounding
  | element before after => .items (Tree.evaluateElements before) (Tree.evaluateElements after)
  | property before key after =>
    let members := Tree.evaluateProperties [] (before ++ (key, none) :: after)
    if key ∈ after.map Prod.fst then .overwritten members else .member members key

/-- **A part of an array or object** shows in its own place only. -/
theorem evaluate_fill (frame : Frame) (part : Tree) :
    (frame.fill part).evaluate = frame.surrounding.fill part.value? := by
  cases frame with
  | element before after =>
    rw [Frame.fill, Tree.evaluate, Tree.evaluateElements_append, Tree.evaluateElements_cons,
      ← List.append_assoc]
    rfl
  | property before key after =>
    rw [Frame.fill, Tree.evaluate, Tree.evaluateProperties_append_cons, Frame.surrounding]
    split
    · rfl
    · rw [← Tree.getD_value? part]
      rfl

/-- Arrays and objects are always supported, whatever stands in them. -/
theorem isUnsupported_fill (frame : Frame) (part : Tree) :
    (frame.fill part).isUnsupported = false := by
  cases frame <;> rfl

/-- **A part in any number of frames** is told from its surroundings and from its own value. -/
theorem value?_plug (frames : List Frame) (part : Tree) :
    (plug frames part).value? = embed (frames.map Frame.surrounding) part.value? := by
  induction frames with
  | nil => rfl
  | cons frame frames ih =>
    have hvalue : (frame.fill (plug frames part)).value? =
        some (frame.fill (plug frames part)).evaluate := by
      rw [Tree.value?, isUnsupported_fill, if_neg Bool.false_ne_true]
    show (frame.fill (plug frames part)).value? = _
    rw [hvalue, evaluate_fill, ih]
    rfl

/-- **A part at any depth** shows in its own place only. -/
theorem evaluate_plug (frames : List Frame) (part : Tree) :
    (plug frames part).evaluate =
      (embed (frames.map Frame.surrounding) part.value?).getD .null := by
  rw [← value?_plug, Tree.getD_value?]

end Mosaic.Literal
