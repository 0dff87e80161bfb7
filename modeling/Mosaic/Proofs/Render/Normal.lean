import Mosaic.Proofs.Composition.Normal
import Mosaic.Proofs.Render.Lookup

/-!
# Rendering normal forms

A renderer sees nothing of a node but its type and its data. So a composition renders like its
normal form, tree and steps: keys besides the type and the data, the order of these two, and data
that is no object make no difference at any depth.

* `Renderer.prop_normalData`: a value of a node's data.
* `Renderer.node_normal`: a node.
* `Renderer.renderValue_normalize`: a composition. The normal form is its own normal form, and
  compositions with the same normal form render the same.
-/

namespace Mosaic.Render

open Mosaic.Composition

namespace Renderer

variable {α : Type} (r : Renderer α)

/-- What is done to the elements of a list may be done on the way. -/
theorem mapM_map_eq {ε β γ δ : Type} {f : γ → Traced ε δ} {g : β → γ} {k : β → Traced ε δ}
    {xs : List β} (h : ∀ x ∈ xs, f (g x) = k x) : (xs.map g).mapM f = xs.mapM k := by
  rw [List.mapM_map]
  exact Traced.mapM_congr h

/-! ## Data -/

section

variable {r} {value : Json}

/-- A node is recognised in its normal form, and anything else is left as it is. -/
theorem propItem_normalElement (h : ∀ m, view? value = some m → r.node m.normal = r.node m) :
    r.propItem (normalElement value) = r.propItem value := by
  cases hview : view? value with
  | none => rw [normalElement_of_not_node hview]
  | some m =>
    rw [propItem_of_view? r (view?_normalElement_of_view? hview), propItem_of_view? r hview,
      h m hview]

/-- A value of a node's data is processed like its normal form, if the nodes within it render like
theirs. -/
theorem prop_normalData
    (h : ∀ q m, (q, m) ∈ nodesWithin value → r.node m.normal = r.node m) :
    r.prop (normalData value) = r.prop value := by
  cases value using array_cases with
  | array items =>
    have hitems : (items.map normalElement).mapM r.propItem = items.mapM r.propItem := by
      refine mapM_map_eq fun item hitem => propItem_normalElement fun m hview => ?_
      obtain ⟨q, hm⟩ := exists_mem_nodesWithin hitem hview
      exact h q m hm
    rw [normalData_array, prop_array, prop_array, any_isNode_normalElement, hitems]
    split
    · rfl
    · -- an array without nodes is passed on, and it is its own normal form
      next hany =>
      have hviews : ∀ item ∈ items, view? item = none := fun item hitem =>
        view?_eq_none_of_any_eq_false (Bool.not_eq_true _ ▸ hany) hitem
      rw [← normalData_array, normalData_of_no_node hviews]
  | other value hne =>
    rw [normalData_of_not_array hne, prop_of_not_array r hne,
      prop_of_not_array r (normalElement_ne_array hne)]
    exact propItem_normalElement fun m hview => h [] m (mem_nodesWithin_self hview)

end

/-! ## Nodes -/

/-- **A node renders like its normal form.** -/
theorem node_normal (n : View) : r.node n.normal = r.node n := by
  -- the nodes within the data render like their normal forms
  induction n using View.entries_induction with
  | step n ih =>
    have hprops : r.props n.normal.entries = r.props n.entries := by
      rw [View.normal_eq, props_eq_mapM, props_eq_mapM]
      refine mapM_map_eq fun entry hentry => ?_
      show (do return (entry.1, ← r.prop (normalData entry.2))) = _
      rw [prop_normalData (ih entry hentry)]
    rw [node, node, hprops, n.kind_normal]

theorem item_normalElement (value : Json) : r.item (normalElement value) = r.item value := by
  cases hview : view? value with
  | none => rw [normalElement_of_not_node hview]
  | some n =>
    rw [item_of_view? r (view?_normalElement_of_view? hview), item_of_view? r hview, node_normal]

/-! ## Compositions -/

theorem item_normalize (value : Json) : r.item (normalize value) = r.item value := by
  induction value using array_induction with
  | array items ih =>
    rw [normalize_array, item_array, item_array, mapM_map_eq ih]
  | other value hne => rw [normalize_of_not_array hne, item_normalElement]

/-- Both ways into the interpreter treat a composition like its normal form. -/
theorem renderValue_normalize_eq (value : Json) :
    r.renderValue (normalize value) = r.renderValue value := by
  cases value using array_cases with
  | array items =>
    have hitems : (items.map normalize).mapM r.item = items.mapM r.item :=
      mapM_map_eq fun item _ => r.item_normalize item
    rw [normalize_array, renderValue, renderValue, itemList_eq_mapM, itemList_eq_mapM, hitems]
  | other value hne =>
    rw [renderValue_of_not_array r hne, renderValue_of_not_array r (normalize_ne_array hne),
      item_normalize]

/-- **Rendering sees nothing of a node but its type and its data.** A normal form has the nodes of
the composition, each with its type and its data only, and renders like the composition, with the
same tree and the same steps; its own normal form is the same again. So compositions that differ
only in what the normal form leaves out, at whatever depth, render the same. -/
theorem renderValue_normalize (v : Json) :
    (∀ p m, Reachable (normalize v) p m ↔ ∃ n, Reachable v p n ∧ n.normal = m) ∧
      r.renderValue (normalize v) = r.renderValue v ∧
      normalize (normalize v) = normalize v ∧
      ∀ w, normalize w = normalize v → r.renderValue w = r.renderValue v := by
  refine ⟨fun p m => reachable_normalize_iff, r.renderValue_normalize_eq v,
    normalize_normalize v, fun w hsame => ?_⟩
  calc r.renderValue w = r.renderValue (normalize w) := (r.renderValue_normalize_eq w).symm
    _ = r.renderValue (normalize v) := by rw [hsame]
    _ = r.renderValue v := r.renderValue_normalize_eq v

end Renderer

end Mosaic.Render
