import Mathlib.Data.List.Basic
import Mosaic.Proofs.Composition.Reachable
import Mosaic.Render.Interpreter

/-!
# The interpreter, node by node

The interpreter walks over lists and members of JSON objects. Here the walk is folded
back into steps on nodes and whole lists: what `item` and `prop` do with an array, with
a node and with anything else. Later statements start from these equations and leave the
definitions of the interpreter alone.

* `Renderer.node`: a node, from its view.
* `item_array`, `item_of_view?`, `item_of_other` and the same for `prop`.
* `value_node`, `trace_node`: the tree of a node and the steps on the way to it.
-/

namespace Mosaic

/-! ## Lists of traced computations -/

namespace Traced

variable {ε : Type} {α β : Type}

/-- The value of many steps is made of their values. -/
theorem value_mapM (f : α → Traced ε β) (xs : List α) :
    (xs.mapM f).value = xs.map fun x => (f x).value := by
  induction xs with
  | nil => rfl
  | cons x rest ih =>
    rw [List.mapM_cons, List.map_cons, ← ih]
    rfl

/-- The trace of many steps is made of their traces. -/
theorem trace_mapM (f : α → Traced ε β) (xs : List α) :
    (xs.mapM f).trace = xs.flatMap fun x => (f x).trace := by
  induction xs with
  | nil => rfl
  | cons x rest ih =>
    rw [List.mapM_cons, List.flatMap_cons, ← ih]
    simp

end Traced

namespace Render

open Mosaic.Composition Mosaic.Registry

namespace Renderer

variable {α : Type} (r : Renderer α)

/-- Renders a node: its data first, then the node. -/
def node (n : View) : Steps (Rendered α) := do
  let props ← r.props n.entries
  r.settle n.kind props

/-! ## Lists -/

theorem itemList_eq_mapM (items : List Json) : r.itemList items = items.mapM r.item := by
  induction items with
  | nil => rw [itemList, List.mapM_nil]
  | cons value rest ih => rw [itemList, List.mapM_cons, ih]

theorem propItems_eq_mapM (items : List Json) : r.propItems items = items.mapM r.propItem := by
  induction items with
  | nil => rw [propItems, List.mapM_nil]
  | cons value rest ih => rw [propItems, List.mapM_cons, ih]

theorem props_eq_mapM (entries : List (String × Json)) :
    r.props entries = entries.mapM fun entry => do return (entry.1, ← r.prop entry.2) := by
  induction entries with
  | nil => rw [props, List.mapM_nil]
  | cons entry rest ih =>
    rw [props, List.mapM_cons, ih]
    simp

/-- A node has no props but those of its data, which must be an object. -/
theorem nodeProps_cons (key : String) (value : Json) (rest : List (String × Json)) :
    r.nodeProps ((key, value) :: rest) =
      if key = "data" then r.props (value.asObject?.getD []) else r.nodeProps rest := by
  cases value <;> simp [nodeProps, Json.asObject?, props]

/-- The first `data` of an object is the data of the node. -/
theorem nodeProps_eq_props (members : List (String × Json)) :
    r.nodeProps members = r.props ((nodeData? members).getD []) := by
  induction members with
  | nil => rw [nodeProps, nodeData?, List.lookup_nil, Option.bind_none, Option.getD_none, props]
  | cons member rest ih =>
    obtain ⟨key, value⟩ := member
    rw [nodeProps_cons, nodeData?, List.lookup_cons]
    by_cases hkey : key = "data"
    · rw [if_pos hkey, hkey, beq_self_eq_true]
      rfl
    · have hne : ("data" == key) = false := beq_eq_false_iff_ne.mpr (Ne.symm hkey)
      rw [if_neg hkey, hne, ih, nodeData?]

/-! ## Values below the top -/

/-- An array is rendered as a row of its elements. -/
theorem item_array (items : List Json) :
    r.item (.array items) = .row .row <$> items.mapM r.item := by
  rw [item, itemList_eq_mapM]
  rfl

/-- A node is rendered as such, in whatever place it stands. -/
theorem item_of_view? {value : Json} {n : View} (h : view? value = some n) :
    r.item value = r.node n := by
  cases value with
  | object members =>
    rw [view?_object, Option.map_eq_some_iff] at h
    obtain ⟨kind, hkind, rfl⟩ := h
    rw [item, hkind, node, ← nodeProps_eq_props]
  | _ => cases h

/-- A value that is neither an array nor a node leaves a placeholder. -/
theorem item_of_other {value : Json} (h : Shape.of value = .other value) :
    r.item value = pure (.placeholder (.notANode value.kind)) := by
  cases value with
  | array items => cases h
  | object members =>
    have hkind : nodeKind? members = none := by
      have hview := view?_of_other h
      rwa [view?_object, Option.map_eq_none_iff] at hview
    rw [item, hkind]
    rfl
  | _ => rw [item] <;> simp

/-! ## Values of a node's data -/

/-- A node in the data of another one becomes a component. -/
theorem propItem_of_view? {value : Json} {n : View} (h : view? value = some n) :
    r.propItem value = .component <$> r.node n := by
  cases value with
  | object members =>
    rw [view?_object, Option.map_eq_some_iff] at h
    obtain ⟨kind, hkind, rfl⟩ := h
    rw [propItem, hkind, node, ← nodeProps_eq_props]
    simp
  | _ => cases h

/-- Any other value there is passed on. -/
theorem propItem_of_not_node {value : Json} (h : view? value = none) :
    r.propItem value = pure (.value value) := by
  cases value with
  | object members =>
    rw [view?_object, Option.map_eq_none_iff] at h
    rw [propItem, h]
  | _ => rw [propItem]; simp

/-- A value that is no array has no elements of its own. -/
theorem prop_of_not_array {value : Json} (h : ∀ items, value ≠ .array items) :
    r.prop value = r.propItem value := by
  cases value with
  | array items => exact absurd rfl (h items)
  | _ => rw [prop, propItem] <;> simp

/-- An array is entered if there is a node in it, and passed on otherwise. -/
theorem prop_array (items : List Json) :
    r.prop (.array items) =
      if items.any isNode then .list <$> items.mapM r.propItem
      else pure (.value (.array items)) := by
  rw [prop, propItems_eq_mapM]
  rfl

/-- Where no element is a node, none shows one. -/
theorem view?_eq_none_of_any_eq_false {items : List Json} (h : items.any isNode = false)
    {item : Json} (hitem : item ∈ items) : view? item = none := by
  rw [List.any_eq_false] at h
  have hnot := h item hitem
  rw [isNode_iff_view?, Bool.not_eq_true, Option.isSome_eq_false_iff] at hnot
  exact Option.isNone_iff_eq_none.mp hnot

/-! ## Traces -/

/-- The steps of an element are those of the node that it may be. -/
theorem trace_propItem (value : Json) :
    (r.propItem value).trace = (nodeHere value).flatMap fun o => (r.node o.2).trace := by
  unfold nodeHere
  cases hview : view? value with
  | none =>
    rw [propItem_of_not_node r hview]
    rfl
  | some n =>
    rw [propItem_of_view? r hview]
    simp

/-- On the way to a prop exactly the nodes within its value are rendered. -/
theorem trace_prop (value : Json) :
    (r.prop value).trace = (nodesWithin value).flatMap fun o => (r.node o.2).trace := by
  cases value using array_cases with
  | array items =>
    -- whether or not the array is passed on as it is, its elements leave these steps
    have hitems : (nodesWithin (.array items)).flatMap (fun o => (r.node o.2).trace) =
        items.flatMap fun item => (r.propItem item).trace := by
      rw [nodesWithin, List.flatMap_assoc]
      conv_rhs => rw [← List.zipIdx_map_fst 0 items, List.flatMap_map]
      refine List.flatMap_congr fun item _ => ?_
      rw [List.flatMap_map, trace_propItem]
      rfl
    rw [prop_array, hitems]
    split
    · rw [Traced.trace_map, Traced.trace_mapM]
    · next hany => -- no element is a node, so that there are no steps
      rw [Traced.trace_pure, eq_comm, List.flatMap_eq_nil_iff]
      intro item hitem
      have hview := view?_eq_none_of_any_eq_false (Bool.not_eq_true _ ▸ hany) hitem
      rw [propItem_of_not_node r hview, Traced.trace_pure]
  | other value hne =>
    rw [prop_of_not_array r hne, nodesWithin_of_not_array hne, trace_propItem]

/-- The nodes nested in a node are dealt with before the node, in document order. -/
theorem trace_node (n : View) :
    (r.node n).trace =
      (n.children.flatMap fun child => (r.node child.2).trace) ++
        (r.settle n.kind (r.props n.entries).value).trace := by
  rw [node, Traced.trace_bind, props_eq_mapM, Traced.trace_mapM, View.children]
  congr 1
  rw [List.flatMap_assoc]
  conv_lhs => rw [← List.zipIdx_map_fst 0 n.entries, List.flatMap_map]
  refine List.flatMap_congr fun entry _ => ?_
  rw [List.flatMap_map, Traced.trace_bind, Traced.trace_pure, List.append_nil, trace_prop]
  rfl

/-! ## Trees -/

/-- A node is settled once its props are there. -/
theorem value_node (n : View) :
    (r.node n).value = (r.settle n.kind (r.props n.entries).value).value := rfl

/-- Each entry of a node becomes a prop of the same name. -/
theorem value_props (entries : List (String × Json)) :
    (r.props entries).value = entries.map fun entry => (entry.1, (r.prop entry.2).value) := by
  rw [props_eq_mapM, Traced.value_mapM]
  rfl

/-- The props of a node have the keys of its data, in the same order. -/
theorem keys_props (n : View) : ((r.props n.entries).value).map Prod.fst = n.keys := by
  rw [value_props, List.map_map]
  rfl

/-- The tree of an array within another one is a row. -/
theorem value_item_array (items : List Json) :
    (r.item (.array items)).value = .row .row (items.map fun item => (r.item item).value) := by
  rw [item_array, Traced.value_map, Traced.value_mapM]

/-- **The tree of an array** is a stack of the trees of its elements. -/
theorem value_renderValue_array (items : List Json) :
    (r.renderValue (.array items)).value =
      .row .stack (items.map fun item => (r.item item).value) := by
  rw [renderValue, itemList_eq_mapM, Traced.value_bind, Traced.value_mapM]
  rfl

/-- The two ways into the interpreter differ in the layout of the outermost row only. -/
theorem renderValue_of_not_array {value : Json} (h : ∀ items, value ≠ .array items) :
    r.renderValue value = r.item value := by
  rw [renderValue]
  exact h

end Renderer

end Render

end Mosaic
