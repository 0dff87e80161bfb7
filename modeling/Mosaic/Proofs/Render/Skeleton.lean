import Mathlib.Data.List.Basic
import Mosaic.Proofs.Render.Nodes

/-!
# The skeleton of a tree

A rendered tree has the arrays of the value as its rows, and nothing else about the value
decides where a row stands. So a part of a value that is reached through arrays is
rendered in its own place, whatever stands beside it.

* `Rendered.subtree?`, `Rendered.replaceAt`: trees by places, like `elementAt?` and
  `replaceAt` for values.
* `subtree?_renderValue`: the tree at a place is the tree of the part there.
* `renderValue_replaceAt`: replacing a part replaces its tree.
* `renderValue_skeleton`: what this says about rows, layouts and siblings.
-/

namespace Mosaic

namespace Composition

/-- The value with its part at a place replaced. A place that is not reached through
arrays leaves the value as it is. -/
def replaceAt (new : Json) : Json → Place → Json
  | _, [] => new
  | .array items, i :: rest => .array (items.modify i fun item => replaceAt new item rest)
  | value, _ :: _ => value

@[simp] theorem replaceAt_nil (new value : Json) : replaceAt new value [] = new := by
  cases value <;> rfl

@[simp] theorem replaceAt_array_cons (new : Json) (items : List Json) (i : Nat) (rest : Place) :
    replaceAt new (.array items) (i :: rest) =
      .array (items.modify i (replaceAt new · rest)) := rfl

/-- There are no places below a value that is no array. -/
theorem replaceAt_cons_of_not_array (new : Json) {value : Json}
    (h : ∀ items, value ≠ .array items) (i : Nat) (rest : Place) :
    replaceAt new value (i :: rest) = value := by
  cases value with
  | array items => exact absurd rfl (h items)
  | _ => rfl

/-- The new part stands where the old one stood. -/
theorem elementAt?_replaceAt (new value : Json) (p : Place) :
    elementAt? (replaceAt new value p) p = (elementAt? value p).map fun _ => new := by
  induction p generalizing value with
  | nil => simp
  | cons i p ih =>
    cases value using array_cases with
    | array items =>
      rw [replaceAt_array_cons, elementAt?_array_cons, elementAt?_array_cons,
        List.getElem?_modify_eq]
      cases items[i]? with
      | none => rfl
      | some item => exact ih item
    | other value hne =>
      rw [replaceAt_cons_of_not_array new hne, elementAt?_cons_eq_none hne]
      rfl

end Composition

namespace Render

open Mosaic.Composition

/-! ## Trees by places -/

namespace Rendered

variable {α : Type}

/-- The tree at a place, descending through the children of rows. -/
def subtree? : Rendered α → Place → Option (Rendered α)
  | tree, [] => some tree
  | .row _ children, i :: rest => children[i]?.bind fun child => child.subtree? rest
  | _, _ :: _ => none

/-- The tree with its subtree at a place replaced. -/
def replaceAt (new : Rendered α) : Rendered α → Place → Rendered α
  | _, [] => new
  | .row layout children, i :: rest =>
    .row layout (children.modify i fun child => replaceAt new child rest)
  | tree, _ :: _ => tree

/-- The layout and the number of children of a row. -/
def frame? : Rendered α → Option (Layout × Nat)
  | .row layout children => some (layout, children.length)
  | _ => none

@[simp] theorem subtree?_nil (tree : Rendered α) : tree.subtree? [] = some tree := by
  cases tree <;> rfl

@[simp] theorem subtree?_row_cons (layout : Layout) (children : List (Rendered α)) (i : Nat)
    (rest : Place) :
    (row layout children).subtree? (i :: rest) = children[i]?.bind (·.subtree? rest) := rfl

@[simp] theorem replaceAt_nil (new tree : Rendered α) : replaceAt new tree [] = new := by
  cases tree <;> rfl

@[simp] theorem replaceAt_row_cons (new : Rendered α) (layout : Layout)
    (children : List (Rendered α)) (i : Nat) (rest : Place) :
    replaceAt new (row layout children) (i :: rest) =
      row layout (children.modify i (replaceAt new · rest)) := rfl

/-- There are no places below a tree that is no row. -/
theorem subtree?_cons_of_frame? {tree : Rendered α} (h : tree.frame? = none) (i : Nat)
    (rest : Place) : tree.subtree? (i :: rest) = none := by
  cases tree with
  | row layout children => cases h
  | _ => rfl

/-- Replacing below a tree that is no row leaves it as it is. -/
theorem replaceAt_cons_of_frame? (new : Rendered α) {tree : Rendered α}
    (h : tree.frame? = none) (i : Nat) (rest : Place) :
    replaceAt new tree (i :: rest) = tree := by
  cases tree with
  | row layout children => cases h
  | _ => rfl

/-- Outside the replaced subtree all rows keep their layout and their number of
children. -/
theorem frame?_replaceAt (new tree : Rendered α) {p q : Place} (hbelow : ¬ p <+: q) :
    ((replaceAt new tree p).subtree? q).map frame? = (tree.subtree? q).map frame? := by
  induction p generalizing tree q with
  | nil => exact absurd List.nil_prefix hbelow
  | cons i p ih =>
    cases tree with
    | row layout children =>
      cases q with
      | nil => simp [frame?] -- the row itself keeps its number of children
      | cons j q =>
        rw [replaceAt_row_cons, subtree?_row_cons, subtree?_row_cons]
        by_cases hij : i = j
        · subst hij
          -- both places lead through the child that changes
          have hrest : ¬ p <+: q := fun h => hbelow (List.cons_prefix_cons.mpr ⟨rfl, h⟩)
          rw [List.getElem?_modify_eq]
          cases children[i]? with
          | none => rfl
          | some child => exact ih child hrest
        · rw [List.getElem?_modify_ne _ _ hij]
    | _ => rw [replaceAt_cons_of_frame? new rfl]

/-- Beside the replaced subtree nothing changes. -/
theorem subtree?_replaceAt (new tree : Rendered α) {p q : Place} (hbelow : ¬ p <+: q)
    (habove : ¬ q <+: p) : (replaceAt new tree p).subtree? q = tree.subtree? q := by
  induction p generalizing tree q with
  | nil => exact absurd List.nil_prefix hbelow
  | cons i p ih =>
    cases tree with
    | row layout children =>
      cases q with
      | nil => exact absurd List.nil_prefix habove
      | cons j q =>
        rw [replaceAt_row_cons, subtree?_row_cons, subtree?_row_cons]
        -- the two places part here, or further down in the same child
        by_cases hij : i = j
        · subst hij
          rw [List.cons_prefix_cons, not_and] at hbelow habove
          rw [List.getElem?_modify_eq]
          cases children[i]? with
          | none => rfl
          | some child => exact ih child (hbelow rfl) (habove rfl)
        · rw [List.getElem?_modify_ne _ _ hij]
    | _ => rw [replaceAt_cons_of_frame? new rfl]

end Rendered

/-! ## Trees of parts -/

/-- Mapping after changing one element, where the mapping commutes with the change. -/
theorem map_modify {β γ : Type} {f : β → γ} {g : β → β} {h : γ → γ}
    (hcomm : ∀ x, f (g x) = h (f x)) (xs : List β) (i : Nat) :
    (xs.modify i g).map f = (xs.map f).modify i h := by
  refine List.ext_getElem? fun j => ?_
  rw [List.getElem?_map, List.getElem?_modify, List.getElem?_modify, List.getElem?_map]
  cases xs[j]? with
  | none => rfl
  | some x =>
    by_cases hij : i = j <;> simp [hij, hcomm]

namespace Renderer

variable {α : Type} (r : Renderer α)

/-- The tree of a part that stands at a place. Only at the top sequences are stacked. -/
def treeAt (p : Place) (value : Json) : Rendered α :=
  if p = [] then (r.renderValue value).value else (r.item value).value

/-- A node never becomes a row, whatever its type and its data are. -/
theorem frame?_settle (kind : String) (props : Props α) :
    (r.settle kind props).value.frame? = none := by
  unfold settle
  cases r.firstMissing kind props with
  | some field => rfl
  | none => cases r.units.get? kind <;> rfl

/-- Only arrays are rendered as rows. -/
theorem frame?_item_of_not_array {value : Json} (h : ∀ items, value ≠ .array items) :
    (r.item value).value.frame? = none := by
  rcases shape_cases value with ⟨items, rfl⟩ | ⟨n, hview⟩ | hother
  · exact absurd rfl (h items)
  · rw [item_of_view? r hview, value_node, frame?_settle]
  · rw [item_of_other r hother]
    rfl

/-- Below the top, the subtree at a place is the tree of the part there. -/
theorem subtree?_item (value : Json) (p : Place) :
    (r.item value).value.subtree? p =
      (elementAt? value p).map fun part => (r.item part).value := by
  induction p generalizing value with
  | nil => simp
  | cons i p ih =>
    cases value using array_cases with
    | array items =>
      rw [value_item_array, Rendered.subtree?_row_cons, elementAt?_array_cons, List.getElem?_map]
      cases items[i]? with
      | none => rfl
      | some item => exact ih item
    | other value hne =>
      rw [Rendered.subtree?_cons_of_frame? (frame?_item_of_not_array r hne),
        elementAt?_cons_eq_none hne]
      rfl

/-- **The tree at a place is the tree of the part there.** -/
theorem subtree?_renderValue (value : Json) (p : Place) :
    (r.renderValue value).value.subtree? p = (elementAt? value p).map (r.treeAt p) := by
  cases p with
  | nil => simp [treeAt]
  | cons i p =>
    have htree : r.treeAt (i :: p) = fun part => (r.item part).value := by
      funext part
      exact if_neg (List.cons_ne_nil i p)
    -- below the top both ways into the interpreter lead to the same trees
    rw [htree, ← subtree?_item]
    cases value using array_cases with
    | array items =>
      rw [value_renderValue_array, value_item_array]
      rfl
    | other value hne =>
      rw [renderValue_of_not_array r hne]

/-- Replacing a part below the top replaces its tree. -/
theorem item_replaceAt (new value : Json) (p : Place) :
    (r.item (replaceAt new value p)).value =
      Rendered.replaceAt (r.item new).value (r.item value).value p := by
  induction p generalizing value with
  | nil => simp
  | cons i p ih =>
    cases value using array_cases with
    | array items =>
      rw [replaceAt_array_cons, value_item_array, value_item_array, Rendered.replaceAt_row_cons,
        map_modify (h := (Rendered.replaceAt (r.item new).value · p)) ih]
    | other value hne =>
      rw [replaceAt_cons_of_not_array new hne,
        Rendered.replaceAt_cons_of_frame? _ (frame?_item_of_not_array r hne)]

/-- **Replacing a part replaces its tree and nothing else.** -/
theorem renderValue_replaceAt (new value : Json) (p : Place) :
    (r.renderValue (replaceAt new value p)).value =
      Rendered.replaceAt (r.treeAt p new) (r.renderValue value).value p := by
  cases p with
  | nil => simp [treeAt]
  | cons i p =>
    rw [treeAt, if_neg (List.cons_ne_nil i p)]
    cases value using array_cases with
    | array items =>
      rw [replaceAt_array_cons, value_renderValue_array, value_renderValue_array,
        Rendered.replaceAt_row_cons,
        map_modify (h := (Rendered.replaceAt (r.item new).value · p))
          fun item => item_replaceAt r new item p]
    | other value hne =>
      rw [replaceAt_cons_of_not_array new hne, renderValue_of_not_array r hne,
        Rendered.replaceAt_cons_of_frame? _ (frame?_item_of_not_array r hne)]

/-! ## Rows and layouts -/

/-- An array becomes a row of the trees of its items, stacked at the top and side by side below it.
-/
theorem treeAt_array (p : Place) (items : List Json) :
    r.treeAt p (.array items) =
      .row (if p = [] then .stack else .row) (items.map fun item => (r.item item).value) := by
  unfold treeAt
  split
  · rw [value_renderValue_array]
  · rw [value_item_array]

/-- Where a part is no array, it does not matter whether it stands at the top. -/
theorem treeAt_of_not_array (p : Place) {value : Json} (h : ∀ items, value ≠ .array items) :
    r.treeAt p value = (r.renderValue value).value := by
  unfold treeAt
  rw [renderValue_of_not_array r h, ite_self]

/-- A tree is a row exactly where the part is an array. -/
theorem treeAt_isRow_iff (p : Place) (value : Json) :
    (∃ layout children, r.treeAt p value = .row layout children) ↔
      ∃ items, value = .array items := by
  constructor
  · rintro ⟨layout, children, hrow⟩
    cases value using array_cases with
    | array items => exact ⟨items, rfl⟩
    | other value hne =>
      have hframe := frame?_item_of_not_array r hne
      rw [treeAt_of_not_array r p hne, renderValue_of_not_array r hne] at hrow
      rw [hrow] at hframe
      cases hframe
  · rintro ⟨items, rfl⟩
    exact ⟨_, _, treeAt_array r p items⟩

/-- **A tree has the array skeleton of its value.** It has a subtree where the value has a
part, a row where the part is an array, stacked at the top only, and of any other part
the tree that this part has on its own. Replacing one part leaves the frames of the rows
above it and all that stands beside it as they were. -/
theorem renderValue_skeleton (v : Json) :
    (∀ p, ((r.renderValue v).value.subtree? p).isSome ↔ (elementAt? v p).isSome) ∧
    (∀ p part tree, elementAt? v p = some part →
      (r.renderValue v).value.subtree? p = some tree →
      ((∃ layout children, tree = .row layout children) ↔ ∃ items, part = .array items) ∧
      (∀ items layout children, part = .array items → tree = .row layout children →
        children.length = items.length ∧ (layout = .stack ↔ p = [])) ∧
      ((∀ items, part ≠ .array items) → tree = (r.renderValue part).value)) ∧
    (∀ p new, (elementAt? v p).isSome →
      (r.renderValue (replaceAt new v p)).value.subtree? p = some (r.treeAt p new) ∧
      (∀ q, ¬ p <+: q →
        ((r.renderValue (replaceAt new v p)).value.subtree? q).map Rendered.frame? =
          ((r.renderValue v).value.subtree? q).map Rendered.frame?) ∧
      (∀ q, ¬ p <+: q → ¬ q <+: p →
        (r.renderValue (replaceAt new v p)).value.subtree? q =
          (r.renderValue v).value.subtree? q)) := by
  refine ⟨?_, ?_, ?_⟩
  · intro p
    rw [subtree?_renderValue, Option.isSome_map]
  · intro p part tree hpart htree
    rw [subtree?_renderValue, hpart, Option.map_some, Option.some.injEq] at htree
    subst htree
    refine ⟨treeAt_isRow_iff r p part, ?_, fun h => treeAt_of_not_array r p h⟩
    rintro items layout children rfl hrow
    rw [treeAt_array, Rendered.row.injEq] at hrow
    obtain ⟨rfl, rfl⟩ := hrow
    refine ⟨List.length_map .., ?_⟩
    -- only the row of the whole value is stacked
    split
    · next htop => exact ⟨fun _ => htop, fun _ => rfl⟩
    · next htop => exact ⟨fun hlayout => Layout.noConfusion hlayout, fun h => absurd h htop⟩
  · intro p new hp
    obtain ⟨part, hpart⟩ := Option.isSome_iff_exists.mp hp
    refine ⟨?_, ?_, ?_⟩
    · rw [subtree?_renderValue, elementAt?_replaceAt, hpart]
      rfl
    · intro q hbelow
      rw [renderValue_replaceAt, Rendered.frame?_replaceAt _ _ hbelow]
    · intro q hbelow habove
      rw [renderValue_replaceAt, Rendered.subtree?_replaceAt _ _ hbelow habove]

end Renderer

end Render

end Mosaic
