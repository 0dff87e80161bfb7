import Mathlib.Data.List.Basic
import Mosaic.Proofs.Composition.Normal
import Mosaic.Proofs.Composition.Postorder
import Mosaic.Proofs.Render.Nodes

/-!
# Reading a tree back

If every unit hands back what it was given, the tree holds the whole composition: reading
it back gives the normal form of the value. So nothing of a node's data is lost or altered
on the way to the units.

* `Echo`, `Echoes`: outputs that keep their props, and components that have such a unit.
* `readTree`: a tree of such outputs as a value. Placeholders cannot be read.
* `readTree_renderValue`: reading undoes rendering.
-/

namespace Mosaic.Render

open Mosaic.Composition

/-- The output of a unit that hands back its type and its props. -/
inductive Echo
  | mk (kind : String) (props : List (String × PropValue Echo))

/-- A component whose unit hands back what it is given, whatever it sends to the sink. -/
def Echoes (r : Renderer Echo) (kind : String) : Prop :=
  ∃ unit, r.units.get? kind = some unit ∧ ∀ props sink, (unit props sink).output = .mk kind props

/-! ## Reading -/

mutual

/-- A row is read as an array, and an output as a node. -/
def readTree : Rendered Echo → Option Json
  | .row _ children => (readTrees children).map .array
  | .unit _ output => readEcho output
  | .placeholder _ => none

/-- Trees are read one after the other. -/
def readTrees : List (Rendered Echo) → Option (List Json)
  | [] => some []
  | tree :: rest => do return (← readTree tree) :: (← readTrees rest)

/-- An output is read as the node that was handed back. -/
def readEcho : Echo → Option Json
  | .mk kind props => (readProps props).map fun entries => View.toJson ⟨kind, entries⟩

/-- Props are read one after the other, under their keys. -/
def readProps : List (String × PropValue Echo) → Option (List (String × Json))
  | [] => some []
  | (key, prop) :: rest => do return (key, ← readProp prop) :: (← readProps rest)

/-- A prop is read as the value from which it was made. -/
def readProp : PropValue Echo → Option Json
  | .value value => some value
  | .component tree => readTree tree
  | .list items => (readPropItems items).map .array

/-- The items of a list are read one after the other. -/
def readPropItems : List (PropValue Echo) → Option (List Json)
  | [] => some []
  | item :: rest => do return (← readProp item) :: (← readPropItems rest)

end

/-- A list that is read item by item is read back if each of its items is. -/
theorem readAll_map {α β γ : Type} (read : α → Option γ) {readAll : List α → Option (List γ)}
    (hnil : readAll [] = some [])
    (hcons : ∀ x rest, readAll (x :: rest) = do return (← read x) :: (← readAll rest))
    {f : β → α} {g : β → γ} {xs : List β} (h : ∀ x ∈ xs, read (f x) = some (g x)) :
    readAll (xs.map f) = some (xs.map g) := by
  induction xs with
  | nil => exact hnil
  | cons x rest ih =>
    rw [List.map_cons, hcons, h x (List.mem_cons_self ..),
      ih fun y hy => h y (List.mem_cons_of_mem _ hy)]
    rfl

/-! ## Reading what was rendered -/

namespace Renderer

variable {r : Renderer Echo}

/-- Without schemas a node that echoes becomes the output of its unit. -/
theorem value_node_of_echoes (hschemas : r.schemas = none) {n : View}
    (hecho : Echoes r n.kind) :
    (r.node n).value = .unit n.kind (.mk n.kind (r.props n.entries).value) := by
  obtain ⟨unit, hunit, houtput⟩ := hecho
  have hmissing : r.firstMissing n.kind (r.props n.entries).value = none := by
    rw [firstMissing, hschemas]
    rfl
  rw [value_node, settle, hmissing, hunit, ← houtput]
  rfl

/-- An element of an array in a node's data is read back in normal form if the node that
it may be is. -/
theorem readProp_propItem {value : Json}
    (h : ∀ m, view? value = some m → readTree (r.node m).value = some m.normal.toJson) :
    readProp (r.propItem value).value = some (normalElement value) := by
  cases hview : view? value with
  | none =>
    rw [propItem_of_not_node r hview, normalElement_of_not_node hview]
    rfl
  | some m =>
    rw [propItem_of_view? r hview, normalElement_of_view? hview]
    exact h m hview

/-- A value of a node's data is read back in normal form if the nodes within it are. -/
theorem readProp_prop {value : Json}
    (h : ∀ q m, (q, m) ∈ nodesWithin value → readTree (r.node m).value = some m.normal.toJson) :
    readProp (r.prop value).value = some (normalData value) := by
  cases value using array_cases with
  | array items =>
    rw [prop_array]
    split
    · have hitems : readPropItems (items.map fun item => (r.propItem item).value) =
          some (items.map normalElement) := by
        refine readAll_map readProp (by rw [readPropItems]) (fun _ _ => by rw [readPropItems]) ?_
        intro item hitem
        refine readProp_propItem fun m hview => ?_
        obtain ⟨j, hj⟩ := List.mem_iff_getElem?.mp hitem
        exact h [j] m (mem_nodesWithin.mpr (.inr ⟨items, j, item, rfl, hj, hview, rfl⟩))
      rw [normalData_array, Traced.value_map, Traced.value_mapM, readProp, hitems]
      rfl
    · -- no element is a node, and the array is passed on as it is
      next hany =>
      rw [normalData_of_no_node fun item hitem =>
        view?_eq_none_of_any_eq_false (Bool.not_eq_true _ ▸ hany) hitem]
      rfl
  | other value hne =>
    rw [prop_of_not_array r hne, normalData_of_not_array hne]
    exact readProp_propItem fun m hview => h [] m (mem_nodesWithin.mpr (.inl ⟨rfl, hview⟩))

/-- A reachable node is read back in normal form. -/
theorem readTree_node {v : Json} (hschemas : r.schemas = none)
    (hecho : ∀ p n, Reachable v p n → Echoes r n.kind) (n : View) :
    ∀ p, Reachable v p n → readTree (r.node n).value = some n.normal.toJson := by
  induction n using View.nested_induction with
  | step n ih =>
    intro p hn
    -- the props are read back entry by entry, since the nodes in them are nested in `n`
    have hprops : readProps (r.props n.entries).value = some n.normal.entries := by
      rw [value_props, View.normal_eq]
      refine readAll_map (fun entry => do return (entry.1, ← readProp entry.2))
        (by rw [readProps]) (fun _ _ => by simp [readProps, Option.bind_assoc]) fun entry hentry => ?_
      have hread : readProp (r.prop entry.2).value = some (normalData entry.2) := by
        refine readProp_prop fun q m hm => ?_
        obtain ⟨i, hi⟩ := List.mem_iff_getElem?.mp hentry
        have hnested : Nested n (i :: q) m :=
          mem_children.mp ((mem_flatMap_under (f := fun entry : String × Json =>
            nodesWithin entry.2)).mpr ⟨i, q, entry, rfl, hi, hm⟩)
        exact ih (i :: q) m hnested (p ++ i :: q) (.nested hn hnested)
      rw [hread]
      rfl
    rw [value_node_of_echoes hschemas (hecho p n hn), readTree, readEcho, hprops, View.normal_eq]
    rfl

/-- The tree of a part of a composition is read as the normal form of the part. -/
theorem readTree_item (hschemas : r.schemas = none) {v : Json} (hcomposed : Composed v)
    (hecho : ∀ p n, Reachable v p n → Echoes r n.kind) :
    readTree (r.item v).value = some (normalize v) := by
  induction hcomposed with
  | @array items _ ih =>
    have hitems : readTrees (items.map fun item => (r.item item).value) =
        some (items.map normalize) := by
      refine readAll_map readTree (by rw [readTrees]) (fun _ _ => by rw [readTrees]) fun item hitem => ?_
      -- what echoes for the array echoes for each element
      obtain ⟨i, hi⟩ := List.mem_iff_getElem?.mp hitem
      exact ih item hitem fun p n hn => hecho (i :: p) n (hn.of_element hi)
    rw [value_item_array, readTree, hitems, normalize_array]
    rfl
  | @node value n hview =>
    rw [item_of_view? r hview, normalize_of_not_array (ne_array_of_view? hview),
      normalElement_of_view? hview]
    exact readTree_node hschemas hecho n [] (.top (elementAt?_nil value) hview)

/-- **Reading undoes rendering.** If all units that a composition needs echo, its tree is
read back as the composition itself with every node reduced to its type and its data. -/
theorem readTree_renderValue (r : Renderer Echo) (v : Json) (hschemas : r.schemas = none)
    (hcomposed : Composed v) (hecho : ∀ p n, Reachable v p n → Echoes r n.kind) :
    readTree (r.renderValue v).value = some (normalize v) := by
  rw [← readTree_item hschemas hcomposed hecho]
  cases v using array_cases with
  | array items =>
    -- the layouts of the two rows differ, but a reader does not look at them
    rw [value_renderValue_array, value_item_array, readTree, readTree]
  | other v hne =>
    rw [renderValue_of_not_array r hne]

end Renderer

/-! ## A shelf with an album

The album has a further key, and photos as a value of its data, among the elements of an
array and, out of reach, inside an inner array. -/

/-- A unit that hands back what it is given. -/
def Echo.unit (kind : String) : RenderUnit Echo := fun props _ => ⟨.mk kind props, []⟩

/-- A renderer of albums and photos, whose units hand back what they are given. -/
def albumRenderer : Renderer Echo where
  units := ⟨.ofList [("album", Echo.unit "album"), ("photo", Echo.unit "photo")]⟩

/-- A photo, which has no data. -/
def photo : View := ⟨"photo", []⟩

/-- An album with photos in each place where one may be, and in one where none is seen. -/
def album : View where
  kind := "album"
  entries := [
    ("cover", .object [("id", .null), ("type", .string "photo")]),
    ("pages", .array [.bool true, .object [("data", .bool false), ("type", .string "photo")]]),
    ("grid", .array [.array [.object [("type", .string "photo"), ("id", .null)]]])]

/-- An array with nothing in its first place and an album in the second. -/
def shelf : Json :=
  .array [.array [], .object [
    ("owner", .null), ("type", .string "album"), ("data", .object album.entries)]]

theorem composed_shelf : Composed shelf := by
  refine .array fun item hitem => ?_
  rw [List.mem_cons, List.mem_singleton] at hitem
  rcases hitem with rfl | rfl
  · exact .array fun item hitem => absurd hitem List.not_mem_nil
  · exact .node (n := album) rfl

theorem roots_shelf : roots shelf = [([1], album)] := by
  simp only [shelf, roots_array, List.zipIdx_cons, List.zipIdx_nil, List.flatMap_cons,
    List.flatMap_nil]
  rw [roots_of_not_array (by simp)]
  rfl

/-- What can be reached in the shelf are the album and its photos. -/
theorem reachable_shelf {p : Place} {n : View} (h : Reachable shelf p n) :
    n = album ∨ n = photo := by
  induction h with
  | top helement hview =>
    have hroot := mem_roots.mpr ⟨_, helement, hview⟩
    rw [roots_shelf, List.mem_singleton] at hroot
    exact .inl (congrArg Prod.snd hroot)
  | nested _ hnested ih =>
    have hchild := mem_children.mpr hnested
    rcases ih with rfl | rfl
    · have hphotos : album.children = [([0], photo), ([1, 1], photo)] := rfl
      rw [hphotos, List.mem_cons, List.mem_singleton] at hchild
      rcases hchild with heq | heq
      · exact .inr (congrArg Prod.snd heq)
      · exact .inr (congrArg Prod.snd heq)
    · cases hchild

/-- The normal form of the shelf drops what does not belong to a node, and keeps what is not seen.
-/
theorem normalize_shelf :
    normalize shelf = .array [.array [], .object [("type", .string "album"), ("data", .object [
      ("cover", photo.toJson),
      ("pages", .array [.bool true, photo.toJson]),
      ("grid", .array [.array [.object [("type", .string "photo"), ("id", .null)]]])])]] := by
  have hphoto : photo.normal = photo := View.normal_eq photo
  have halbum : album.normal = ⟨"album", [
      ("cover", photo.toJson),
      ("pages", .array [.bool true, photo.toJson]),
      ("grid", .array [.array [.object [("type", .string "photo"), ("id", .null)]]])]⟩ := by
    rw [View.normal_eq, album, List.map_cons, List.map_cons, List.map_cons, List.map_nil,
      normalData_of_not_array (by simp), normalElement_of_view? (n := photo) rfl, hphoto,
      normalData_array, List.map_cons, List.map_cons, List.map_nil,
      normalElement_of_not_node rfl, normalElement_of_view? (n := photo) rfl, hphoto,
      normalData_of_no_node (by simp)]
  rw [shelf, normalize_array, List.map_cons, List.map_cons, List.map_nil, normalize_array,
    List.map_nil, normalize_of_not_array (by simp), normalElement_of_view? (n := album) rfl,
    halbum]
  rfl

/-- The tree of the shelf is read back without the keys that no renderer looks at. -/
theorem readTree_renderValue_shelf :
    albumRenderer.schemas = none ∧ Composed shelf ∧
    (∀ p n, Reachable shelf p n → Echoes albumRenderer n.kind) ∧
    readTree (albumRenderer.renderValue shelf).value =
      some (.array [.array [], .object [("type", .string "album"), ("data", .object [
        ("cover", photo.toJson),
        ("pages", .array [.bool true, photo.toJson]),
        ("grid", .array [.array [.object [("type", .string "photo"), ("id", .null)]]])])]]) := by
  have hecho : ∀ p n, Reachable shelf p n → Echoes albumRenderer n.kind := by
    intro p n hn
    rcases reachable_shelf hn with rfl | rfl
    · exact ⟨Echo.unit "album", rfl, fun _ _ => rfl⟩
    · exact ⟨Echo.unit "photo", rfl, fun _ _ => rfl⟩
  refine ⟨rfl, composed_shelf, hecho, ?_⟩
  rw [← normalize_shelf]
  exact Renderer.readTree_renderValue albumRenderer shelf rfl composed_shelf hecho

end Mosaic.Render
