import Mosaic.Proofs.Literal.Surroundings

/-!
# Literals without unsupported parts

A literal can be made into the literal of a value in advance: elements that are not supported are
deleted, values of members that are not supported or missing become null, and properties with
the same key are merged. What is left has nothing in it that evaluation would have to decide, and
is read as it stands. Evaluating the literal gives the same value.

* `Tree.pruned`: the literal without its unsupported parts.
* `Tree.plain?`: a literal read as it stands, if it is the literal of a value.
* `pruned_eq_ofJson`, `unrepeated_evaluate`: what is left is the literal of the value.
* `evaluate_spec`: evaluation is pruning and reading, and each part shows in its own place only.
-/

namespace Mosaic.Literal.Tree

/-! ## Trees -/

/-- To prove something of all literals, prove it of a container from what it holds. -/
@[elab_as_elim] theorem tree_induction {motive : Tree → Prop}
    (string : ∀ s, motive (.string s)) (number : ∀ n, motive (.number n))
    (bool : ∀ b, motive (.bool b)) (null : motive .null)
    (array : ∀ elements, (∀ element ∈ elements, motive element) → motive (.array elements))
    (object : ∀ properties, (∀ property ∈ properties, ∀ part, property.2 = some part →
      motive part) → motive (.object properties))
    (unsupported : motive .unsupported) (t : Tree) : motive t := by
  match t with
  | .string s => exact string s
  | .number n => exact number n
  | .bool b => exact bool b
  | .null => exact null
  | .unsupported => exact unsupported
  | .array elements =>
    refine array elements fun element helement => ?_
    have hsize := List.sizeOf_lt_of_mem helement
    exact tree_induction string number bool null array object unsupported element
  | .object properties =>
    refine object properties fun property hproperty part hpart => ?_
    have hsize := List.sizeOf_lt_of_mem hproperty
    exact tree_induction string number bool null array object unsupported part
termination_by sizeOf t
-- parts are smaller than the array or object that holds them, a property counting its key as well
decreasing_by
  · simp only [Tree.array.sizeOf_spec]
    omega
  · obtain ⟨key, part?⟩ := property
    subst hpart
    simp only [Tree.object.sizeOf_spec, Prod.mk.sizeOf_spec, Option.some.sizeOf_spec] at hsize ⊢
    omega

mutual

/-- A literal without its unsupported parts, and with each key once. -/
def pruned : Tree → Tree
  | string text => .string text
  | number value => .number value
  | bool value => .bool value
  | null => .null
  | unsupported => .null
  | array elements => .array (prunedElements elements)
  | object properties => .object (merged (prunedProperties properties))

/-- The elements that are kept, each of them pruned. -/
def prunedElements : List Tree → List Tree
  | [] => []
  | element :: rest =>
    if element.isUnsupported then prunedElements rest
    else element.pruned :: prunedElements rest

/-- The properties, with null in the place of those without a value. -/
def prunedProperties : List (String × Option Tree) → List (String × Option Tree)
  | [] => []
  | (key, some part) :: rest => (key, some part.pruned) :: prunedProperties rest
  | (key, none) :: rest => (key, some .null) :: prunedProperties rest

end

mutual

/-- A literal read as it stands. It must have no part without a value and no key twice. -/
def plain? : Tree → Option Json
  | string text => some (.string text)
  | number value => some (.number value)
  | bool value => some (.bool value)
  | null => some .null
  | unsupported => none
  | array elements => (plainElements? elements).map .array
  | object properties =>
    if (properties.map Prod.fst).Nodup then (plainMembers? properties).map .object else none

/-- The values of elements, if all of them are plain. -/
def plainElements? : List Tree → Option (List Json)
  | [] => some []
  | element :: rest => do
    let item ← element.plain?
    let items ← plainElements? rest
    return item :: items

/-- The values of properties, if all of them are there and plain. -/
def plainMembers? : List (String × Option Tree) → Option (List (String × Json))
  | [] => some []
  | (_, none) :: _ => none
  | (key, some part) :: rest => do
    let value ← part.plain?
    let members ← plainMembers? rest
    return (key, value) :: members

end

/-! ## Reading as it stands -/

/-- The elements of a plain tree are read one by one. -/
theorem plainElements?_ofItems {items : List Json}
    (h : ∀ item ∈ items, (ofJson item).plain? = some item) :
    plainElements? (ofItems items) = some items := by
  induction items with
  | nil => rw [ofItems, plainElements?]
  | cons item rest ih =>
    rw [List.forall_mem_cons] at h
    rw [ofItems, plainElements?, h.1, ih h.2]
    rfl

/-- So are its properties. -/
theorem plainMembers?_ofMembers {members : List (String × Json)}
    (h : ∀ member ∈ members, (ofJson member.2).plain? = some member.2) :
    plainMembers? (ofMembers members) = some members := by
  induction members with
  | nil => rw [ofMembers, plainMembers?]
  | cons member rest ih =>
    obtain ⟨key, value⟩ := member
    rw [List.forall_mem_cons] at h
    rw [ofMembers, plainMembers?, h.1, ih h.2]
    rfl

/-- A property has the name of its member. -/
theorem map_fst_ofMembers (members : List (String × Json)) :
    (ofMembers members).map Prod.fst = members.map Prod.fst := by
  rw [ofMembers_eq_map, List.map_map]
  rfl

/-- The literal of a value is read as the value. -/
theorem plain?_ofJson {value : Json} (h : value.Unrepeated) :
    (ofJson value).plain? = some value := by
  induction value using Json.value_induction with
  | null | bool | number | string => rw [ofJson, plain?]
  | array items ih =>
    cases h with
    | array hitems =>
      have hplain := plainElements?_ofItems fun item hitem => ih item hitem (hitems item hitem)
      rw [ofJson, plain?, hplain, Option.map_some]
  | object members ih =>
    cases h with
    | object hnodup hmembers =>
      have hplain := plainMembers?_ofMembers fun member hmember =>
        ih member hmember (hmembers member hmember)
      rw [ofJson, plain?, map_fst_ofMembers, if_pos hnodup, hplain, Option.map_some]

/-- Elements that can be read are those of the values that are read. -/
theorem eq_ofItems_of_plainElements? {elements : List Tree} {items : List Json}
    (h : ∀ element ∈ elements, ∀ value, element.plain? = some value →
      element = ofJson value ∧ value.Unrepeated)
    (hplain : plainElements? elements = some items) :
    elements = ofItems items ∧ ∀ item ∈ items, item.Unrepeated := by
  induction elements generalizing items with
  | nil =>
    rw [plainElements?, Option.some_inj] at hplain
    subst hplain
    exact ⟨by rw [ofItems], nofun⟩
  | cons element rest ih =>
    rw [List.forall_mem_cons] at h
    -- the first element is plain, and so are the others
    rw [plainElements?] at hplain
    obtain ⟨item, hitem, hplain⟩ := Option.bind_eq_some_iff.mp hplain
    obtain ⟨others, hothers, hplain⟩ := Option.bind_eq_some_iff.mp hplain
    cases hplain
    obtain ⟨helement, hunrepeated⟩ := h.1 item hitem
    obtain ⟨hrest, hall⟩ := ih h.2 hothers
    exact ⟨by rw [ofItems, ← helement, ← hrest], List.forall_mem_cons.mpr ⟨hunrepeated, hall⟩⟩

/-- Properties that can be read are those of the values that are read. -/
theorem eq_ofMembers_of_plainMembers? {properties : List (String × Option Tree)}
    {members : List (String × Json)}
    (h : ∀ property ∈ properties, ∀ part, property.2 = some part →
      ∀ value, part.plain? = some value → part = ofJson value ∧ value.Unrepeated)
    (hplain : plainMembers? properties = some members) :
    properties = ofMembers members ∧ ∀ member ∈ members, member.2.Unrepeated := by
  induction properties generalizing members with
  | nil =>
    rw [plainMembers?, Option.some_inj] at hplain
    subst hplain
    exact ⟨by rw [ofMembers], nofun⟩
  | cons property rest ih =>
    obtain ⟨key, part?⟩ := property
    rw [List.forall_mem_cons] at h
    cases part? with
    | none => simp [plainMembers?] at hplain
    | some part =>
      rw [plainMembers?] at hplain
      obtain ⟨value, hvalue, hplain⟩ := Option.bind_eq_some_iff.mp hplain
      obtain ⟨others, hothers, hplain⟩ := Option.bind_eq_some_iff.mp hplain
      cases hplain
      obtain ⟨hpart, hunrepeated⟩ := h.1 part rfl value hvalue
      obtain ⟨hrest, hall⟩ := ih h.2 hothers
      exact ⟨by rw [ofMembers, ← hpart, ← hrest], List.forall_mem_cons.mpr ⟨hunrepeated, hall⟩⟩

/-- Nothing but the literal of a value is read as it stands. -/
theorem eq_ofJson_of_plain? {t : Tree} {value : Json} (h : t.plain? = some value) :
    t = ofJson value ∧ value.Unrepeated := by
  induction t using tree_induction generalizing value with
  | string | number | bool | null =>
    rw [plain?, Option.some_inj] at h
    subst h
    exact ⟨by rw [ofJson], by constructor⟩
  | unsupported => simp [plain?] at h
  | array elements ih =>
    rw [plain?] at h
    obtain ⟨items, hitems, rfl⟩ := Option.map_eq_some_iff.mp h
    obtain ⟨helements, hall⟩ :=
      eq_ofItems_of_plainElements? (fun element helement _ => ih element helement) hitems
    exact ⟨by rw [ofJson, ← helements], .array hall⟩
  | object properties ih =>
    rw [plain?] at h
    split at h
    · next hnodup =>
      obtain ⟨members, hmembers, rfl⟩ := Option.map_eq_some_iff.mp h
      obtain ⟨hproperties, hall⟩ := eq_ofMembers_of_plainMembers?
        (fun property hproperty part hpart _ => ih property hproperty part hpart) hmembers
      -- an object with distinct keys is plain, and all others are not
      rw [hproperties, map_fst_ofMembers] at hnodup
      exact ⟨by rw [ofJson, ← hproperties], .object hnodup hall⟩
    · cases h

/-- **A literal read as it stands** is the literal of the value that is read. -/
theorem plain?_eq_some_iff {t : Tree} {value : Json} :
    t.plain? = some value ↔ t = ofJson value ∧ value.Unrepeated := by
  refine ⟨eq_ofJson_of_plain?, ?_⟩
  rintro ⟨rfl, h⟩
  exact plain?_ofJson h

/-! ## Pruning -/

/-- Pruned elements are those of their values. -/
theorem prunedElements_eq_ofItems {elements : List Tree}
    (h : ∀ element ∈ elements, element.pruned = ofJson element.evaluate) :
    prunedElements elements = ofItems (evaluateElements elements) := by
  induction elements with
  | nil => rw [prunedElements, evaluateElements, ofItems]
  | cons element rest ih =>
    rw [List.forall_mem_cons] at h
    rw [prunedElements, evaluateElements, h.1, ih h.2]
    split
    · rfl
    · rw [ofItems]

/-- Pruned properties are those of their values. -/
theorem prunedProperties_eq_ofMembers {properties : List (String × Option Tree)}
    (h : ∀ property ∈ properties, ∀ part, property.2 = some part →
      part.pruned = ofJson part.evaluate) :
    prunedProperties properties = ofMembers (memberValues properties) := by
  induction properties with
  | nil =>
    rw [prunedProperties, memberValues, List.map_nil, ofMembers]
  | cons property rest ih =>
    obtain ⟨key, part?⟩ := property
    rw [List.forall_mem_cons] at h
    have hrest := ih h.2
    rw [memberValues] at hrest ⊢
    rw [List.map_cons, ofMembers, ← hrest]
    cases part? with
    | none =>
      rw [prunedProperties, memberValue, Option.map_none, Option.getD_none, ofJson]
    | some part =>
      rw [prunedProperties, h.1 part rfl, memberValue, Option.map_some, Option.getD_some]

/-- The value of an object is what its properties come to, with equal names merged. -/
theorem evaluate_object (properties : List (String × Option Tree)) :
    (object properties).evaluate = .object (merged (memberValues properties)) := by
  rw [evaluate, evaluateProperties_eq, putEntries_nil]

/-- **What is left** of a literal is the literal of its value. -/
theorem pruned_eq_ofJson (t : Tree) : t.pruned = ofJson t.evaluate := by
  induction t using tree_induction with
  | string | number | bool | null | unsupported => rw [pruned, evaluate, ofJson]
  | array elements ih => rw [pruned, evaluate, ofJson, prunedElements_eq_ofItems ih]
  | object properties ih =>
    -- members are merged by their keys, whether they hold trees or values
    rw [pruned, evaluate_object, ofJson, prunedProperties_eq_ofMembers ih, ofMembers_eq_map,
      ofMembers_eq_map, merged_map fun value => some (ofJson value)]

/-- No object of a value repeats a key. -/
theorem unrepeated_evaluate (t : Tree) : t.evaluate.Unrepeated := by
  induction t using tree_induction with
  | string s => rw [evaluate]; exact .string s
  | number n => rw [evaluate]; exact .number n
  | bool b => rw [evaluate]; exact .bool b
  | null | unsupported => rw [evaluate]; exact .null
  | array elements ih =>
    rw [evaluate, evaluateElements_eq_map]
    refine .array fun item hitem => ?_
    obtain ⟨element, helement, rfl⟩ := List.mem_map.mp hitem
    exact ih element (List.mem_of_mem_filter helement)
  | object properties ih =>
    rw [evaluate_object]
    -- repeated keys are merged into one member
    have hkeys : ((merged (memberValues properties)).map Prod.fst).Nodup := by
      rw [map_fst_merged]
      exact nodup_eraseDups _
    refine .object hkeys fun member hmember => ?_
    obtain ⟨property, hproperty, rfl⟩ := List.mem_map.mp (mem_of_mem_merged hmember)
    obtain ⟨key, part?⟩ := property
    cases part? with
    | none => exact .null
    | some part => exact ih (key, some part) hproperty part rfl

/-! ## Evaluation -/

/-- **Evaluation** reads what is left of a literal as it stands. In an array only the unsupported
elements are deleted, and the literal of a value has this value. Whatever a part of a literal is,
it shows in its own place only; if it is unsupported, this place is empty or null. -/
theorem evaluate_spec :
    (∀ t : Tree, t.pruned.plain? = some t.evaluate) ∧
    (∀ elements, (Tree.array elements).evaluate =
      .array ((elements.filter fun element => !element.isUnsupported).map evaluate)) ∧
    (∀ t : Tree, t.isUnsupported = true ↔ t = .unsupported) ∧
    (∀ value : Json, value.Unrepeated → (ofJson value).evaluate = value) ∧
    ∀ (frames : List Frame) (part : Tree), (plug frames part).evaluate =
      (embed (frames.map Frame.surrounding) part.value?).getD .null := by
  refine ⟨fun t => ?_, fun elements => ?_, fun t => isUnsupported_iff,
    fun value => evaluate_ofJson, evaluate_plug⟩
  · exact plain?_eq_some_iff.mpr ⟨pruned_eq_ofJson t, unrepeated_evaluate t⟩
  · rw [evaluate, evaluateElements_eq_map]

/-- An array with a null, an empty array and an object that holds a null. -/
def nested : Json := .array [.null, .array [], .object [("a", .string "x"), ("b", .null)]]

theorem unrepeated_nested : nested.Unrepeated := by
  have hobject : (Json.object [("a", .string "x"), ("b", .null)]).Unrepeated := by
    refine .object (by decide) fun member hmember => ?_
    rcases List.mem_pair.mp hmember with rfl | rfl
    · exact .string "x"
    · exact .null
  refine .array fun item hitem => ?_
  simp only [List.mem_cons, List.not_mem_nil, or_false] at hitem
  rcases hitem with rfl | rfl | rfl
  · exact .null
  · exact .array nofun
  · exact hobject

theorem evaluate_spec_nested :
    nested.Unrepeated ∧ (ofJson nested).evaluate = nested ∧
      (Tree.array [.null, .unsupported, .array [.unsupported],
        .object [("a", none), ("b", some .unsupported), ("a", some (.string "x"))]]).evaluate =
          nested := by
  refine ⟨unrepeated_nested, evaluate_spec.2.2.2.1 nested unrepeated_nested, ?_⟩
  exact Option.some.inj ((evaluate_spec.1 _).symm.trans rfl)

end Mosaic.Literal.Tree
