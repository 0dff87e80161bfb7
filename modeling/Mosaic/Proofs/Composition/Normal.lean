import Mosaic.Proofs.Composition.Reachable

/-!
# Normal forms of compositions

A composition without what no renderer looks at: every reachable node is reduced to its
type and its data, and nothing else is touched. A node whose data is absent or no object
gets the empty object.

* `View.normal`, `normalize`: the normal form of a node and of a value.
* `normalData_array`, `normalData_of_no_node`, `normalElement_of_view?`: what happens to a
  value of a node's data.
* `Composed`: values of which nothing but nodes is reached through arrays.
* `normalize_normalize`: a normal form is its own normal form.
* `reachable_normalize_iff`: the nodes of a normal form.
-/

namespace Mosaic.Composition

/-- A node as an object with its type and its data, and nothing else. -/
def View.toJson (n : View) : Json :=
  .object [("type", .string n.kind), ("data", .object n.entries)]

/-! ## Definition -/

mutual

/-- A node whose nested nodes are in normal form. -/
def View.normal (n : View) : View :=
  ⟨n.kind, n.entries.attach.map fun entry => (entry.1.1, normalData entry.1.2)⟩
termination_by (sizeOf n.entries, 0)
decreasing_by
  obtain ⟨⟨key, value⟩, hentry⟩ := entry
  have hsize := List.sizeOf_lt_of_mem hentry
  simp only [Prod.mk.sizeOf_spec] at hsize
  show Prod.Lex _ _ (sizeOf value, 1) _
  exact Prod.Lex.left _ _ (by omega)

/-- The normal form of a value of a node's data. Arrays are entered one level only. -/
def normalData : Json → Json
  | .array items => .array (items.attach.map fun item => normalElement item.1)
  | value => normalElement value
termination_by value => (sizeOf value, 1)
decreasing_by
  · have hsize := List.sizeOf_lt_of_mem item.2
    simp only [Json.array.sizeOf_spec]
    exact Prod.Lex.left _ _ (by omega)
  · exact Prod.Lex.right _ Nat.zero_lt_one

/-- The normal form of an element of such an array. -/
def normalElement (value : Json) : Json :=
  match _hview : view? value with
  | some n => n.normal.toJson
  | none => value
termination_by (sizeOf value, 0)
decreasing_by exact Prod.Lex.left _ _ (sizeOf_entries_lt _hview)

end

/-- The normal form of a composition. -/
def normalize : Json → Json
  | .array items => .array (items.attach.map fun item => normalize item.1)
  | value => normalElement value
termination_by value => sizeOf value
decreasing_by
  have hsize := List.sizeOf_lt_of_mem item.2
  simp only [Json.array.sizeOf_spec]
  omega

/-- A value built of arrays and nodes only, as far as it is reached through arrays. -/
inductive Composed : Json → Prop
  | array {items : List Json} : (∀ item ∈ items, Composed item) → Composed (.array items)
  | node {value : Json} {n : View} : view? value = some n → Composed value

/-! ## Equations -/

/-- The normal form of a node is that of each of its entries, in their order. -/
theorem View.normal_eq (n : View) :
    n.normal = ⟨n.kind, n.entries.map fun entry => (entry.1, normalData entry.2)⟩ := by
  rw [View.normal,
    List.attach_map_val (f := fun entry : String × Json => (entry.1, normalData entry.2))]

theorem View.kind_normal (n : View) : n.normal.kind = n.kind := by rw [View.normal_eq]

/-- An element that is a node is reduced to its type and its data. -/
theorem normalElement_of_view? {value : Json} {n : View} (h : view? value = some n) :
    normalElement value = n.normal.toJson := by
  unfold normalElement
  split
  · next m hm => rw [Option.some.inj (hm.symm.trans h)]
  · next hnone => cases hnone.symm.trans h

/-- Any other element stays as it is. -/
theorem normalElement_of_not_node {value : Json} (h : view? value = none) :
    normalElement value = value := by
  unfold normalElement
  split
  · next m hm => cases hm.symm.trans h
  · rfl

/-- In the data of a node, the normal form of an array is that of its elements. -/
theorem normalData_array (items : List Json) :
    normalData (.array items) = .array (items.map normalElement) := by
  rw [normalData, List.attach_map_val (f := normalElement)]

/-- Any other value there is an element on its own. -/
theorem normalData_of_not_array {value : Json} (h : ∀ items, value ≠ .array items) :
    normalData value = normalElement value := by
  rw [normalData]
  exact h

/-- An array without a node among its elements is not touched. -/
theorem normalData_of_no_node {items : List Json} (h : ∀ item ∈ items, view? item = none) :
    normalData (.array items) = .array items := by
  have hitems : items.map normalElement = items.map id :=
    List.map_congr_left fun item hitem => normalElement_of_not_node (h item hitem)
  rw [normalData_array, hitems, List.map_id]

/-- The normal form of an array is that of its items. -/
theorem normalize_array (items : List Json) :
    normalize (.array items) = .array (items.map normalize) := by
  rw [normalize, List.attach_map_val (f := normalize)]

/-- The normal form of any other value is that of an element. -/
theorem normalize_of_not_array {value : Json} (h : ∀ items, value ≠ .array items) :
    normalize value = normalElement value := by
  rw [normalize]
  exact h

/-! ## Nodes stay nodes -/

/-- The type of a node is not empty. -/
theorem kind_ne_empty {value : Json} {n : View} (h : view? value = some n) : n.kind ≠ "" := by
  cases value with
  | object members =>
    rw [view?_object, Option.map_eq_some_iff] at h
    obtain ⟨kind, hkind, rfl⟩ := h
    unfold nodeKind? at hkind
    split at hkind
    · -- an empty type makes no node
      split at hkind
      · cases hkind
      · next hne => rwa [← Option.some.inj hkind]
    · cases hkind
  | _ => cases h

/-- A node that is written as an object is read as the same node. -/
theorem view?_toJson {n : View} (h : n.kind ≠ "") : view? n.toJson = some n := by
  rw [View.toJson, view?_object]
  have hkind : nodeKind? [("type", .string n.kind), ("data", .object n.entries)] = some n.kind := by
    simp [nodeKind?, h]
  rw [hkind]
  rfl

/-- The normal form of a node is a node, with its data in normal form. -/
theorem view?_normalElement_of_view? {value : Json} {n : View} (h : view? value = some n) :
    view? (normalElement value) = some n.normal := by
  have hkind : n.normal.kind ≠ "" := n.kind_normal ▸ kind_ne_empty h
  rw [normalElement_of_view? h, view?_toJson hkind]

/-- **A node is seen in a normal form** if it is seen in the element, and then it is in normal form
itself. -/
theorem view?_normalElement (value : Json) :
    view? (normalElement value) = (view? value).map View.normal := by
  cases hview : view? value with
  | none =>
    rw [normalElement_of_not_node hview, hview]
    rfl
  | some n =>
    rw [view?_normalElement_of_view? hview]
    rfl

/-- An array keeps its nodes where they stand, so that it is dealt with in the same way. -/
theorem any_isNode_normalElement (items : List Json) :
    (items.map normalElement).any isNode = items.any isNode := by
  rw [List.any_map]
  congr 1
  funext item
  show isNode (normalElement item) = isNode item
  rw [isNode_iff_view?, isNode_iff_view?, view?_normalElement, Option.isSome_map]

/-- No element becomes an array. -/
theorem normalElement_ne_array {value : Json} (h : ∀ items, value ≠ .array items) :
    ∀ items, normalElement value ≠ .array items := by
  cases hview : view? value with
  | none => rwa [normalElement_of_not_node hview]
  | some n =>
    intro items
    rw [normalElement_of_view? hview, View.toJson]
    exact Json.noConfusion

/-! ## The normal form of a normal form -/

/-- The normal form of an element is its own, if that of the node is. -/
theorem normalElement_normalElement {value : Json}
    (h : ∀ m, view? value = some m → m.normal.normal = m.normal) :
    normalElement (normalElement value) = normalElement value := by
  cases hview : view? value with
  | none => rw [normalElement_of_not_node hview, normalElement_of_not_node hview]
  | some m =>
    rw [normalElement_of_view? (view?_normalElement_of_view? hview), h m hview,
      normalElement_of_view? hview]

/-- The normal form of a value in the data of a node is its own, if those of the nodes within it
are. -/
theorem normalData_normalData {value : Json}
    (h : ∀ q m, (q, m) ∈ nodesWithin value → m.normal.normal = m.normal) :
    normalData (normalData value) = normalData value := by
  cases value using array_cases with
  | array items =>
    rw [normalData_array, normalData_array, List.map_map]
    refine congrArg Json.array (List.map_congr_left fun item hitem => ?_)
    refine normalElement_normalElement fun m hview => ?_
    obtain ⟨q, hm⟩ := exists_mem_nodesWithin hitem hview
    exact h q m hm
  | other value hne =>
    rw [normalData_of_not_array hne, normalData_of_not_array (normalElement_ne_array hne)]
    exact normalElement_normalElement fun m hview => h [] m (mem_nodesWithin_self hview)

/-- A node in normal form is its own normal form. -/
theorem View.normal_normal (n : View) : n.normal.normal = n.normal := by
  induction n using View.entries_induction with
  | step n ih =>
    rw [View.normal_eq n, View.normal_eq, List.map_map]
    refine congrArg (View.mk n.kind) (List.map_congr_left fun entry hentry => ?_)
    exact congrArg (Prod.mk entry.1) (normalData_normalData (ih entry hentry))

/-- No value becomes an array. -/
theorem normalize_ne_array {value : Json} (h : ∀ items, value ≠ .array items) :
    ∀ items, normalize value ≠ .array items := by
  rw [normalize_of_not_array h]
  exact normalElement_ne_array h

/-- A composition in normal form is its own normal form. -/
theorem normalize_normalize (value : Json) : normalize (normalize value) = normalize value := by
  induction value using array_induction with
  | array items ih =>
    rw [normalize_array, normalize_array, List.map_map]
    exact congrArg Json.array (List.map_congr_left ih)
  | other value hne =>
    rw [normalize_of_not_array (normalize_ne_array hne), normalize_of_not_array hne]
    exact normalElement_normalElement fun m _ => m.normal_normal

/-! ## Places -/

/-- The same is seen of a normal form, but in normal form. -/
theorem view?_normalize (value : Json) : view? (normalize value) = (view? value).map View.normal := by
  cases value using array_cases with
  | array items =>
    rw [normalize_array]
    rfl
  | other value hne => rw [normalize_of_not_array hne, view?_normalElement]

/-- The elements stay where they are. -/
theorem elementAt?_normalize (value : Json) (p : Place) :
    elementAt? (normalize value) p = (elementAt? value p).map normalize := by
  induction p generalizing value with
  | nil =>
    rw [elementAt?_nil, elementAt?_nil]
    rfl
  | cons i rest ih =>
    cases value using array_cases with
    | array items =>
      rw [normalize_array, elementAt?_array_cons, elementAt?_array_cons, List.getElem?_map]
      cases items[i]? with
      | none => rfl
      | some item => exact ih item
    | other value hne =>
      rw [elementAt?_cons_eq_none hne, elementAt?_cons_eq_none (normalize_ne_array hne)]
      rfl

/-- The entries of a normal form are in their old places. -/
theorem getElem?_entries_normal (n : View) (i : Nat) :
    n.normal.entries[i]? = n.entries[i]?.map fun entry => (entry.1, normalData entry.2) := by
  rw [View.normal_eq, List.getElem?_map]

/-- A value of the data is an array in normal form only if it was one before. -/
theorem normalData_eq_array {value : Json} {items : List Json}
    (h : normalData value = .array items) :
    ∃ before, value = .array before ∧ items = before.map normalElement := by
  cases value using array_cases with
  | array before =>
    rw [normalData_array] at h
    exact ⟨before, rfl, (Json.array.inj h).symm⟩
  | other value hne =>
    rw [normalData_of_not_array hne] at h
    exact absurd h (normalElement_ne_array hne items)

/-- The nodes within a normal form are those within the node, in normal form. -/
theorem nested_normal_iff {n m : View} {q : Place} :
    Nested n.normal q m ↔ ∃ k, Nested n q k ∧ k.normal = m := by
  constructor
  · intro h
    cases h with
    | value hentry hview =>
      rw [getElem?_entries_normal, Option.map_eq_some_iff] at hentry
      obtain ⟨⟨key, value⟩, hvalue, heq⟩ := hentry
      obtain ⟨rfl, rfl⟩ := Prod.mk.inj heq
      -- an array is no node, before and after
      have hne : ∀ items, value ≠ .array items := by
        rintro items rfl
        rw [normalData_array] at hview
        cases hview
      rw [normalData_of_not_array hne, view?_normalElement, Option.map_eq_some_iff] at hview
      obtain ⟨k, hk, rfl⟩ := hview
      exact ⟨k, .value hvalue hk, rfl⟩
    | element hentry hitem hview =>
      rw [getElem?_entries_normal, Option.map_eq_some_iff] at hentry
      obtain ⟨⟨key, value⟩, hvalue, heq⟩ := hentry
      obtain ⟨rfl, harray⟩ := Prod.mk.inj heq
      obtain ⟨items, rfl, rfl⟩ := normalData_eq_array harray
      rw [List.getElem?_map, Option.map_eq_some_iff] at hitem
      obtain ⟨item, hitem, rfl⟩ := hitem
      rw [view?_normalElement, Option.map_eq_some_iff] at hview
      obtain ⟨k, hk, rfl⟩ := hview
      exact ⟨k, .element hvalue hitem hk, rfl⟩
  · rintro ⟨k, h, rfl⟩
    cases h with
    | @value i key value _ hentry hview =>
      have hnormal : n.normal.entries[i]? = some (key, normalElement value) := by
        rw [getElem?_entries_normal, hentry, ← normalData_of_not_array (ne_array_of_view? hview)]
        rfl
      exact .value hnormal (view?_normalElement_of_view? hview)
    | @element i j key items item _ hentry hitem hview =>
      have hnormal : n.normal.entries[i]? = some (key, .array (items.map normalElement)) := by
        rw [getElem?_entries_normal, hentry, ← normalData_array]
        rfl
      have helement : (items.map normalElement)[j]? = some (normalElement item) := by
        rw [List.getElem?_map, hitem]
        rfl
      exact .element hnormal helement (view?_normalElement_of_view? hview)

/-- **The reachable nodes** of a normal form are those of the value, where they stand, each in
normal form. -/
theorem reachable_normalize_iff {v : Json} {p : Place} {m : View} :
    Reachable (normalize v) p m ↔ ∃ n, Reachable v p n ∧ n.normal = m := by
  -- in both directions the induction is on the way to the node
  constructor
  · intro h
    induction h with
    | top helement hview =>
      rw [elementAt?_normalize, Option.map_eq_some_iff] at helement
      obtain ⟨value, hvalue, rfl⟩ := helement
      rw [view?_normalize, Option.map_eq_some_iff] at hview
      obtain ⟨n, hn, rfl⟩ := hview
      exact ⟨n, .top hvalue hn, rfl⟩
    | nested _ hnested ih =>
      obtain ⟨n, hn, rfl⟩ := ih
      obtain ⟨k, hk, rfl⟩ := nested_normal_iff.mp hnested
      exact ⟨k, .nested hn hk, rfl⟩
  · rintro ⟨n, h, rfl⟩
    induction h with
    | @top p value n helement hview =>
      have hnormal : elementAt? (normalize v) p = some (normalize value) := by
        rw [elementAt?_normalize, helement]
        rfl
      refine .top hnormal ?_
      rw [view?_normalize, hview]
      rfl
    | nested _ hnested ih => exact .nested ih (nested_normal_iff.mpr ⟨_, hnested, rfl⟩)

end Mosaic.Composition
