import Mathlib.Data.List.Basic
import Mosaic.Composition.Node

/-!
# Reachable nodes of a composition

Which nodes of a JSON value a renderer has to deal with, said without a renderer.
From the value itself nodes are reached through arrays, however deep. From a node
they are reached through its data, and there arrays are entered one level only: a
node in an array that stands inside an array of a data field is plain data.

A `Place` says where a part stands: the index of the element in an array, or of the
entry in the data of a node, at each level.

* `View`, `view?`: a node as its type and the entries of its data.
* `Nested`, `Reachable`: the two ways to a node.
* `mem_children`: the nodes nested in a node, as a list.
* `array_induction`, `View.nested_induction`: induction along either way. The second ends
  because the data of a nested node is smaller.
-/

namespace Mosaic.Composition

/-- The indices that lead to a part of a value, outermost first. -/
abbrev Place := List Nat

/-! ## Views -/

/-- A node as its type and the entries of its data. -/
@[ext] structure View where
  kind : String
  entries : List (String × Json)

/-- The view of a value that is a node. Data that is no object counts as empty. -/
def view? (value : Json) : Option View :=
  match Shape.of value with
  | .node kind data => some ⟨kind, data.getD []⟩
  | _ => none

/-- The field names of a node's data, in document order. -/
def View.keys (n : View) : List String := n.entries.map Prod.fst

@[simp] theorem view?_array (items : List Json) : view? (.array items) = none := rfl

/-- What is seen of an object is its type and its data; without data it has no entries. -/
theorem view?_object (members : List (String × Json)) :
    view? (.object members) =
      (nodeKind? members).map fun kind => ⟨kind, (nodeData? members).getD []⟩ := by
  simp only [view?, Shape.of]
  cases nodeKind? members <;> rfl

/-- A value is a node if one is seen. -/
theorem isNode_iff_view? (value : Json) : isNode value = (view? value).isSome := by
  unfold isNode view?
  cases Shape.of value <;> rfl

/-- A value is an array, a node, or neither. -/
theorem shape_cases (value : Json) :
    (∃ items, value = .array items) ∨ (∃ n, view? value = some n) ∨
      Shape.of value = .other value := by
  cases value with
  | array items => exact .inl ⟨items, rfl⟩
  | object members =>
    simp only [view?_object, Shape.of]
    cases nodeKind? members with
    | some kind => exact .inr (.inl ⟨_, rfl⟩)
    | none => exact .inr (.inr rfl)
  | _ => exact .inr (.inr rfl)

/-- An array is treated in its own way everywhere, and the other values alike. -/
theorem array_cases {motive : Json → Prop} (array : ∀ items, motive (.array items))
    (other : ∀ value, (∀ items, value ≠ .array items) → motive value) (value : Json) :
    motive value := by
  cases value with
  | array items => exact array items
  | _ => exact other _ fun _ => Json.noConfusion

/-- Induction along arrays, however deep. -/
theorem array_induction {motive : Json → Prop}
    (array : ∀ items, (∀ item ∈ items, motive item) → motive (.array items))
    (other : ∀ value, (∀ items, value ≠ .array items) → motive value) (value : Json) :
    motive value := by
  induction h : sizeOf value using Nat.strongRecOn generalizing value with
  | ind size ih =>
    subst h
    cases value using array_cases with
    | array items =>
      refine array items fun item hitem => ih _ ?_ item rfl
      have hsize := List.sizeOf_lt_of_mem hitem
      simp only [Json.array.sizeOf_spec]
      omega
    | other value hne => exact other value hne

/-- No array is seen as a node. -/
theorem ne_array_of_view? {value : Json} {n : View} (h : view? value = some n) :
    ∀ items, value ≠ .array items := by
  rintro items rfl
  cases h

/-- Nothing is seen of a value that is neither an array nor a node. -/
theorem view?_of_other {value : Json} (h : Shape.of value = .other value) :
    view? value = none := by
  rw [view?, h]

/-- The data of a node is a proper part of the node. -/
theorem sizeOf_entries_lt {value : Json} {n : View} (h : view? value = some n) :
    sizeOf n.entries < sizeOf value := by
  cases value with
  | object members =>
    rw [view?_object, Option.map_eq_some_iff] at h
    obtain ⟨kind, -, rfl⟩ := h
    -- the data is the object under the first `data`, or empty
    have hdata : sizeOf ((nodeData? members).getD []) ≤ sizeOf members := by
      unfold nodeData?
      induction members with
      | nil => simp
      | cons member rest ih =>
        obtain ⟨key, value⟩ := member
        rw [List.lookup_cons]
        split
        · cases value <;> simp [Json.asObject?] <;> omega
        · simp only [List.cons.sizeOf_spec]
          omega
    simp only [Json.object.sizeOf_spec]
    omega
  | _ => simp [view?, Shape.of] at h

/-! ## Reachability -/

/-- The value at a place that is reached through arrays only. -/
def elementAt? : Json → Place → Option Json
  | value, [] => some value
  | .array items, i :: rest => items[i]?.bind fun item => elementAt? item rest
  | _, _ :: _ => none

@[simp] theorem elementAt?_nil (value : Json) : elementAt? value [] = some value := by
  cases value <;> rfl

@[simp] theorem elementAt?_array_cons (items : List Json) (i : Nat) (rest : Place) :
    elementAt? (.array items) (i :: rest) = items[i]?.bind (elementAt? · rest) := rfl

/-- Only arrays are descended into. -/
theorem elementAt?_cons_eq_none {value : Json} (h : ∀ items, value ≠ .array items)
    (i : Nat) (rest : Place) : elementAt? value (i :: rest) = none := by
  cases value with
  | array items => exact absurd rfl (h items)
  | _ => rfl

/-- `Nested n q m`: the node `m` is a value of the data of `n`, or a direct element of
an array that is one, and `q` says which. -/
inductive Nested (n : View) : Place → View → Prop
  | value {i : Nat} {key : String} {value : Json} {m : View} :
      n.entries[i]? = some (key, value) → view? value = some m → Nested n [i] m
  | element {i j : Nat} {key : String} {items : List Json} {item : Json} {m : View} :
      n.entries[i]? = some (key, .array items) → items[j]? = some item →
      view? item = some m → Nested n [i, j] m

/-- `Reachable v p n`: the value `v` has the node `n` at the place `p`, reached from `v`
through arrays or from a reachable node through its data. -/
inductive Reachable (v : Json) : Place → View → Prop
  | top {p : Place} {value : Json} {n : View} :
      elementAt? v p = some value → view? value = some n → Reachable v p n
  | nested {p q : Place} {n m : View} :
      Reachable v p n → Nested n q m → Reachable v (p ++ q) m

/-- What an element of an array reaches, the array reaches below its index. -/
theorem Reachable.of_element {items : List Json} {i : Nat} {item : Json}
    (hitem : items[i]? = some item) {p : Place} {n : View} (h : Reachable item p n) :
    Reachable (.array items) (i :: p) n := by
  induction h with
  | top helement hview =>
    refine .top ?_ hview
    rw [elementAt?_array_cons, hitem]
    exact helement
  | nested _ hnested ih => exact .nested ih hnested

/-- What is reachable in an element is reachable in the array. -/
theorem exists_reachable_of_mem {items : List Json} {item : Json} (hitem : item ∈ items)
    {motive : View → Prop} (h : ∃ p n, Reachable item p n ∧ motive n) :
    ∃ p n, Reachable (.array items) p n ∧ motive n := by
  obtain ⟨p, n, hn, hmotive⟩ := h
  obtain ⟨i, hi⟩ := List.getElem?_of_mem hitem
  exact ⟨i :: p, n, hn.of_element hi, hmotive⟩

/-- A value is smaller than the entries among which it stands. -/
theorem sizeOf_lt_of_getElem? {entries : List (String × Json)} {i : Nat} {key : String}
    {value : Json} (h : entries[i]? = some (key, value)) : sizeOf value < sizeOf entries := by
  have hmem := List.sizeOf_lt_of_mem (List.mem_of_getElem? h)
  simp only [Prod.mk.sizeOf_spec] at hmem
  omega

/-- **A nested node is smaller** than the one in which it is nested. -/
theorem Nested.sizeOf_lt {n m : View} {q : Place} (h : Nested n q m) :
    sizeOf m.entries < sizeOf n.entries := by
  cases h with
  | value hentry hview =>
    exact Nat.lt_trans (sizeOf_entries_lt hview) (sizeOf_lt_of_getElem? hentry)
  | element hentry hitem hview =>
    have harray := sizeOf_lt_of_getElem? hentry
    have helement := List.sizeOf_lt_of_mem (List.mem_of_getElem? hitem)
    have hdata := sizeOf_entries_lt hview
    simp only [Json.array.sizeOf_spec] at harray
    omega

/-- **Induction along nesting.** What holds of a node whenever it holds of all nodes
nested in its data holds of every node. -/
theorem View.nested_induction {motive : View → Prop}
    (step : ∀ n, (∀ q m, Nested n q m → motive m) → motive n) (n : View) : motive n := by
  induction h : sizeOf n.entries using Nat.strongRecOn generalizing n with
  | ind size ih =>
    subst h
    exact step n fun q m hm => ih _ hm.sizeOf_lt m rfl

/-! ## Enumerations -/

/-- An occurrence, seen from a value that has it below the place `q`. -/
def under (q : Place) (o : Place × View) : Place × View := (q ++ o.1, o.2)

/-- The value itself, if it is a node. -/
def nodeHere (value : Json) : List (Place × View) := ((view? value).map ([], ·)).toList

/-- The node that a data value is, or those among its elements. -/
def nodesWithin : Json → List (Place × View)
  | .array items => items.zipIdx.flatMap fun item => (nodeHere item.1).map (under [item.2])
  | value => nodeHere value

/-- The nodes nested in the data of a node, in document order. -/
def View.children (n : View) : List (Place × View) :=
  n.entries.zipIdx.flatMap fun entry => (nodesWithin entry.1.2).map (under [entry.2])

/-- Occurrences gathered from the parts of a list, each below the index of its part. -/
theorem mem_flatMap_under {α : Type} {parts : List α} {f : α → List (Place × View)}
    {p : Place} {n : View} :
    (p, n) ∈ parts.zipIdx.flatMap (fun part => (f part.1).map (under [part.2])) ↔
      ∃ i q part, p = i :: q ∧ parts[i]? = some part ∧ (q, n) ∈ f part := by
  simp only [List.mem_flatMap, List.mem_map]
  constructor
  · rintro ⟨⟨part, i⟩, hpart, ⟨q, m⟩, hm, heq⟩
    obtain ⟨rfl, rfl⟩ := Prod.mk.inj heq
    exact ⟨i, q, part, rfl, List.mk_mem_zipIdx_iff_getElem?.mp hpart, hm⟩
  · rintro ⟨i, q, part, rfl, hpart, hm⟩
    exact ⟨(part, i), List.mk_mem_zipIdx_iff_getElem?.mpr hpart, (q, n), hm, rfl⟩

/-- Occurrences gathered from below those of another list. -/
theorem mem_flatMap_map_under {places : List (Place × View)} {f : View → List (Place × View)}
    {p : Place} {n : View} :
    (p, n) ∈ places.flatMap (fun o => (f o.2).map (under o.1)) ↔
      ∃ q m r, (q, m) ∈ places ∧ (r, n) ∈ f m ∧ p = q ++ r := by
  simp only [List.mem_flatMap, List.mem_map]
  constructor
  · rintro ⟨⟨q, m⟩, hm, ⟨r, k⟩, hk, heq⟩
    obtain ⟨rfl, rfl⟩ := Prod.mk.inj heq
    exact ⟨q, m, r, hm, hk, rfl⟩
  · rintro ⟨q, m, r, hm, hn, rfl⟩
    exact ⟨(q, m), hm, (r, n), hn, rfl⟩

/-- There is a node in the place of a value if one is seen there. -/
theorem mem_nodeHere {value : Json} {p : Place} {n : View} :
    (p, n) ∈ nodeHere value ↔ p = [] ∧ view? value = some n := by
  simp only [nodeHere, Option.mem_toList, Option.map_eq_some_iff, Prod.mk.injEq]
  constructor
  · rintro ⟨m, hview, rfl, rfl⟩
    exact ⟨rfl, hview⟩
  · rintro ⟨rfl, hview⟩
    exact ⟨n, hview, rfl, rfl⟩

/-- Nothing is within a value that is no array, but the node that it may be. -/
theorem nodesWithin_of_not_array {value : Json} (h : ∀ items, value ≠ .array items) :
    nodesWithin value = nodeHere value := by
  cases value with
  | array items => exact absurd rfl (h items)
  | _ => rfl

/-- **The nodes within a value**: the one that it is, or those among its elements. -/
theorem mem_nodesWithin {value : Json} {q : Place} {m : View} :
    (q, m) ∈ nodesWithin value ↔
      (q = [] ∧ view? value = some m) ∨
        ∃ items j item, value = .array items ∧ items[j]? = some item ∧
          view? item = some m ∧ q = [j] := by
  -- only one level of arrays is looked into
  cases value using array_cases with
  | array items =>
    rw [nodesWithin, mem_flatMap_under]
    constructor
    · rintro ⟨j, p, item, rfl, hitem, hm⟩
      obtain ⟨rfl, hview⟩ := mem_nodeHere.mp hm
      exact .inr ⟨items, j, item, rfl, hitem, hview, rfl⟩
    · rintro (⟨-, hview⟩ | ⟨_, j, item, heq, hitem, hview, rfl⟩)
      · cases hview
      · cases heq
        exact ⟨j, [], item, rfl, hitem, mem_nodeHere.mpr ⟨rfl, hview⟩⟩
  | other value hne =>
    rw [nodesWithin_of_not_array hne, mem_nodeHere]
    constructor
    · exact .inl
    · rintro (h | ⟨items, _, _, heq, -⟩)
      · exact h
      · exact absurd heq (hne items)

/-- The children of a node are the nodes nested in it. -/
theorem mem_children {n m : View} {q : Place} : (q, m) ∈ n.children ↔ Nested n q m := by
  refine (mem_flatMap_under (f := fun entry : String × Json => nodesWithin entry.2)).trans ?_
  constructor
  · rintro ⟨i, p, ⟨key, value⟩, rfl, hentry, hm⟩
    -- a value of the data that is a node, or an element of an array there
    rcases mem_nodesWithin.mp hm with ⟨rfl, hview⟩ | ⟨items, j, item, rfl, hitem, hview, rfl⟩
    · exact .value hentry hview
    · exact .element hentry hitem hview
  · intro h
    cases h with
    | @value i key value _ hentry hview =>
      exact ⟨i, [], (key, value), rfl, hentry, mem_nodesWithin.mpr (.inl ⟨rfl, hview⟩)⟩
    | @element i j key items item _ hentry hitem hview =>
      exact ⟨i, [j], (key, .array items), rfl, hentry,
        mem_nodesWithin.mpr (.inr ⟨items, j, item, rfl, hitem, hview, rfl⟩)⟩

/-- A nested node has a place of its own. -/
theorem Nested.place_ne_nil {n m : View} {q : Place} (h : Nested n q m) : q ≠ [] := by
  cases h <;> exact List.cons_ne_nil _ _

/-- What is within an entry of the data of a node is nested in the node. -/
theorem exists_nested_of_mem {n m : View} {entry : String × Json} (hentry : entry ∈ n.entries)
    {q : Place} (hm : (q, m) ∈ nodesWithin entry.2) : ∃ p, Nested n p m := by
  obtain ⟨i, hi⟩ := List.getElem?_of_mem hentry
  refine ⟨i :: q, mem_children.mp ?_⟩
  exact (mem_flatMap_under (f := fun entry : String × Json => nodesWithin entry.2)).mpr
    ⟨i, q, entry, rfl, hi, hm⟩

/-- **Induction along the data.** What holds of a node whenever it holds of all nodes within the
entries of its data holds of every node. -/
theorem View.entries_induction {motive : View → Prop}
    (step : ∀ n, (∀ entry ∈ n.entries, ∀ q m, (q, m) ∈ nodesWithin entry.2 → motive m) → motive n)
    (n : View) : motive n := by
  induction n using View.nested_induction with
  | step n ih =>
    refine step n fun entry hentry q m hm => ?_
    obtain ⟨p, hp⟩ := exists_nested_of_mem hentry hm
    exact ih p m hp

/-- The elements of an array that are nodes are within it. -/
theorem exists_mem_nodesWithin {items : List Json} {item : Json} (hitem : item ∈ items) {m : View}
    (hview : view? item = some m) : ∃ q, (q, m) ∈ nodesWithin (.array items) := by
  obtain ⟨j, hj⟩ := List.getElem?_of_mem hitem
  exact ⟨[j], mem_nodesWithin.mpr (.inr ⟨items, j, item, rfl, hj, hview, rfl⟩)⟩

/-- A value that is a node is within itself. -/
theorem mem_nodesWithin_self {value : Json} {m : View} (hview : view? value = some m) :
    ([], m) ∈ nodesWithin value := mem_nodesWithin.mpr (.inl ⟨rfl, hview⟩)

end Mosaic.Composition
