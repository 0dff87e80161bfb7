import Mosaic.Proofs.Render.Trace

/-!
# What a renderer depends on

A renderer asks its unit map for the unit of a type and its schema store for the schema of a
type, and passes its sink on. It asks only about the types of the nodes that it deals with, and
of a schema it looks at the required fields only. So two renderers that get the same answers there
render the same, whatever else they hold and however they came by it.

* `Renderer.SettlesAs`: two renderers that do the same with a node whose data has been processed.
* `Renderer.renderValue_eq_of_settlesAs`: they render a value the same if that is so for every
  reachable node.
* `Renderer.Agrees.render_eq`: renderers that always get the same answers render everything the
  same.
* `Renderer.renderValue_eq_of_agreesAt`: it is enough that they get the same answers for the types
  of the reachable nodes.
-/

namespace Mosaic

/-- A traced computation on every element of a list depends on what it does there only. -/
theorem Traced.mapM_congr {ε α β : Type} {f g : α → Traced ε β} {xs : List α}
    (h : ∀ x ∈ xs, f x = g x) : xs.mapM f = xs.mapM g := by
  induction xs with
  | nil => rfl
  | cons x rest ih =>
    rw [List.forall_mem_cons] at h
    rw [List.mapM_cons, List.mapM_cons, h.1, ih h.2]

/-- What comes after a traced computation is done with the value that it reached only. -/
theorem Traced.bind_congr_value {ε α β : Type} {x : Traced ε α} {f g : α → Traced ε β}
    (h : f x.value = g x.value) : x >>= f = x >>= g := by
  show Traced.mk (f x.value).value (x.trace ++ (f x.value).trace) = _
  rw [h]
  rfl

namespace Render

open Mosaic.Composition Mosaic.Registry

namespace Renderer

variable {α : Type} {r r' : Renderer α}

/-! ## Parts that are nodes -/

section

variable {value : Json}

theorem propItem_congr (h : ∀ n, view? value = some n → r.node n = r'.node n) :
    r.propItem value = r'.propItem value := by
  cases hview : view? value with
  | none => rw [propItem_of_not_node r hview, propItem_of_not_node r' hview]
  | some n => rw [propItem_of_view? r hview, propItem_of_view? r' hview, h n hview]

/-- A value of the data of a node depends on the nodes within it. -/
theorem prop_congr (h : ∀ q n, (q, n) ∈ nodesWithin value → r.node n = r'.node n) :
    r.prop value = r'.prop value := by
  cases value using array_cases with
  | array items =>
    have hitems : items.mapM r.propItem = items.mapM r'.propItem := by
      refine Traced.mapM_congr fun item hitem => propItem_congr fun n hview => ?_
      obtain ⟨j, hj⟩ := List.getElem?_of_mem hitem
      exact h [j] n (mem_nodesWithin.mpr (.inr ⟨items, j, item, rfl, hj, hview, rfl⟩))
    rw [prop_array, prop_array, hitems]
  | other value hne =>
    rw [prop_of_not_array r hne, prop_of_not_array r' hne]
    exact propItem_congr fun n hview => h [] n (mem_nodesWithin.mpr (.inl ⟨rfl, hview⟩))

/-- The props of a node depend on the nodes nested in it. -/
theorem props_congr {n : View} (h : ∀ q m, Nested n q m → r.node m = r'.node m) :
    r.props n.entries = r'.props n.entries := by
  rw [props_eq_mapM, props_eq_mapM]
  refine Traced.mapM_congr fun entry hentry => ?_
  obtain ⟨i, hi⟩ := List.getElem?_of_mem hentry
  have hprop : r.prop entry.2 = r'.prop entry.2 := by
    refine prop_congr fun q m hm => h (i :: q) m (mem_children.mp ?_)
    -- a node within an entry is nested in the node, below the index of the entry
    exact (mem_flatMap_under (f := fun entry : String × Json => nodesWithin entry.2)).mpr
      ⟨i, q, entry, rfl, hi, hm⟩
  rw [hprop]

end

/-! ## Nodes that are settled alike -/

/-- Two renderers do the same with a node once its data has been processed, whatever came of the
data: validation and dispatch look at the keys of the data and hand its values on. -/
def SettlesAs (r r' : Renderer α) (n : View) : Prop :=
  ∀ props : Props α, props.map Prod.fst = n.keys → r.settle n.kind props = r'.settle n.kind props

section

variable {v : Json} (h : ∀ p n, Reachable v p n → r.SettlesAs r' n)
include h

/-- **A reachable node renders the same**, tree and steps, if all reachable nodes are settled
alike. -/
theorem node_eq_of_settlesAs (n : View) : ∀ {p : Place}, Reachable v p n → r.node n = r'.node n := by
  -- the induction is on the nesting of nodes, as a node is rendered after those within it
  induction n using View.nested_induction with
  | step n ih =>
    intro p hn
    have hprops : r.props n.entries = r'.props n.entries :=
      props_congr fun q m hm => ih q m hm (.nested hn hm)
    rw [node, node, hprops]
    -- the same props are handed on, and they have the keys of the data
    exact Traced.bind_congr_value (h p n hn _ (keys_props r' n))

end

theorem item_eq_of_settlesAs {v : Json} (h : ∀ p n, Reachable v p n → r.SettlesAs r' n) :
    r.item v = r'.item v := by
  induction v using array_induction with
  | array items ih =>
    rw [item_array, item_array]
    refine congrArg (Rendered.row .row <$> ·) (Traced.mapM_congr fun item hitem => ?_)
    -- what an element reaches, the array reaches as well
    obtain ⟨i, hi⟩ := List.getElem?_of_mem hitem
    exact ih item hitem fun p n hn => h (i :: p) n (hn.of_element hi)
  | other v hne =>
    rcases shape_cases v with ⟨items, rfl⟩ | ⟨n, hview⟩ | hother
    · exact absurd rfl (hne items)
    · rw [item_of_view? r hview, item_of_view? r' hview]
      exact node_eq_of_settlesAs h n (.top (elementAt?_nil v) hview)
    · rw [item_of_other r hother, item_of_other r' hother]

/-- **A value renders the same**, tree and steps, if its reachable nodes are settled alike. -/
theorem renderValue_eq_of_settlesAs {v : Json} (h : ∀ p n, Reachable v p n → r.SettlesAs r' n) :
    r.renderValue v = r'.renderValue v := by
  cases v using array_cases with
  | array items =>
    have hitems : items.mapM r.item = items.mapM r'.item := by
      refine Traced.mapM_congr fun item hitem => item_eq_of_settlesAs fun p n hn => ?_
      obtain ⟨i, hi⟩ := List.getElem?_of_mem hitem
      exact h (i :: p) n (hn.of_element hi)
    rw [renderValue, renderValue, itemList_eq_mapM, itemList_eq_mapM, hitems]
  | other v hne =>
    rw [renderValue_of_not_array r hne, renderValue_of_not_array r' hne]
    exact item_eq_of_settlesAs h

/-! ## Renderers that get the same answers -/

/-- Two renderers with the same sink that find the same units and the same schemas. -/
structure Agrees (r r' : Renderer α) : Prop where
  sink_eq : r.sink = r'.sink
  unit_eq : ∀ kind, r.units.get? kind = r'.units.get? kind
  schema_eq : ∀ kind, r.schemas.bind (·.get? kind) = r'.schemas.bind (·.get? kind)

namespace Agrees

theorem settle_eq (h : r.Agrees r') (kind : String) (props : Props α) :
    r.settle kind props = r'.settle kind props := by
  rw [settle, settle, firstMissing, firstMissing, h.schema_eq, h.unit_eq, h.sink_eq]

theorem renderValue_eq (h : r.Agrees r') (value : Json) :
    r.renderValue value = r'.renderValue value :=
  renderValue_eq_of_settlesAs fun _ n _ props _ => h.settle_eq n.kind props

/-- **A composition renders the same**, whether it comes as a value or as text. -/
theorem render_eq (h : r.Agrees r') (input : Input) : r.render input = r'.render input := by
  rw [render, render, funext h.renderValue_eq]

end Agrees

/-! ## Renderers that get the same answers about a type -/

/-- Two renderers that find the same unit for a type, and schemas that require the same fields or
no schema. -/
structure AgreesAt (r r' : Renderer α) (kind : String) : Prop where
  unit_eq : r.units.get? kind = r'.units.get? kind
  required_eq : (r.schemas.bind (·.get? kind)).map (·.required) =
    (r'.schemas.bind (·.get? kind)).map (·.required)

/-- Of a schema the required fields are looked at, and nothing else. -/
theorem firstMissing_eq_bind (r : Renderer α) (kind : String) (props : Props α) :
    r.firstMissing kind props = ((r.schemas.bind (·.get? kind)).map (·.required)).bind
      fun required => required.find? fun name => !(props.map Prod.fst).contains name := by
  rw [firstMissing, Option.bind_map]
  rfl

theorem AgreesAt.settlesAs {n : View} (h : r.AgreesAt r' n.kind) (hsink : r.sink = r'.sink) :
    r.SettlesAs r' n := by
  intro props _
  -- the schemas may differ in all but the required fields
  have hmissing : r.firstMissing n.kind props = r'.firstMissing n.kind props := by
    rw [firstMissing_eq_bind, firstMissing_eq_bind, h.required_eq]
  rw [settle, settle, hmissing, h.unit_eq, hsink]

/-- **What renders as what depends on the types of the reachable nodes.** Two renderers with one
sink that get the same answers about those types render the value the same, with the same steps on
the way. A type that no reachable node has makes no difference: what has it stands in a value that
is passed on untouched. -/
theorem renderValue_eq_of_agreesAt (r r' : Renderer α) (v : Json) (hsink : r.sink = r'.sink) :
    ((∀ p n, Reachable v p n → r.AgreesAt r' n.kind) → r.renderValue v = r'.renderValue v) ∧
    (∀ untouched : String → Prop, (∀ p n, Reachable v p n → ¬ untouched n.kind) →
      (∀ kind, ¬ untouched kind → r.AgreesAt r' kind) → r.renderValue v = r'.renderValue v) := by
  have hreachable : (∀ p n, Reachable v p n → r.AgreesAt r' n.kind) →
      r.renderValue v = r'.renderValue v := by
    intro hagrees
    exact renderValue_eq_of_settlesAs fun p n hn => (hagrees p n hn).settlesAs hsink
  refine ⟨hreachable, fun untouched hout hagrees => ?_⟩
  exact hreachable fun p n hn => hagrees n.kind (hout p n hn)

end Renderer

/-! ### A board that holds stamps it does not show

One stamp is in an inner array and one in an object that is no node, so that the board is the only
reachable node. -/

def stamp : Json := .object [("type", .string "stamp")]

def board : View where
  kind := "board"
  entries := [("grid", .array [.array [stamp]]), ("owner", .object [("gift", stamp)])]

def boardValue : Json := .object [("type", .string "board"), ("data", .object board.entries)]

/-- Shows the names of the props. -/
def propsUnit (props : Props (List String)) (_ : EventSink) : Outcome (List String) :=
  ⟨props.map Prod.fst, []⟩

/-- Knows boards only. -/
def boardRenderer : Renderer (List String) where
  units := ⟨.ofList [("board", propsUnit)]⟩

/-- Knows stamps as well, and requires something of them. -/
def stampRenderer : Renderer (List String) where
  units := ⟨.ofList [("board", propsUnit), ("stamp", propsUnit)]⟩
  schemas := some (.ofList [("stamp", { required := ["price"] })])

theorem reachable_boardValue {p : Place} {n : View} (h : Reachable boardValue p n) :
    n = board := by
  have hchildren : board.children = [] := rfl
  induction h with
  | @top p value n helement hview =>
    cases p with
    | nil => cases helement; cases hview; rfl
    | cons i p => cases helement
  | nested _ hnested ih =>
    -- the board has no nodes nested in it
    have hchild := mem_children.mpr hnested
    rw [ih, hchildren] at hchild
    exact absurd hchild List.not_mem_nil

/-- The renderers have only stamps to disagree about. -/
theorem agreesAt_of_ne_stamp {kind : String} (h : kind ≠ "stamp") :
    boardRenderer.AgreesAt stampRenderer kind where
  unit_eq := by
    have hne : (kind == "stamp") = false := beq_eq_false_iff_ne.mpr h
    show [("board", propsUnit)].lookup kind =
      [("board", propsUnit), ("stamp", propsUnit)].lookup kind
    rw [List.lookup_cons, List.lookup_cons, List.lookup_cons, hne]
  required_eq := by
    have hne : (kind == "stamp") = false := beq_eq_false_iff_ne.mpr h
    have hschema : [("stamp", ({ required := ["price"] } : Schema))].lookup kind = none := by
      rw [List.lookup_cons, hne, List.lookup_nil]
    show none = Option.map _ ([("stamp", ({ required := ["price"] } : Schema))].lookup kind)
    rw [hschema, Option.map_none]

/-- The stamps make no difference, although the renderers disagree about them. -/
theorem renderValue_boardValue :
    boardRenderer.sink = stampRenderer.sink ∧
    ¬ boardRenderer.AgreesAt stampRenderer "stamp" ∧
    (∀ kind, kind ≠ "stamp" → boardRenderer.AgreesAt stampRenderer kind) ∧
    (∀ p n, Reachable boardValue p n → n.kind ≠ "stamp") ∧
    boardRenderer.renderValue boardValue = stampRenderer.renderValue boardValue := by
  have hreachable : ∀ p n, Reachable boardValue p n → ¬ n.kind = "stamp" := by
    intro p n hn
    rw [reachable_boardValue hn]
    decide
  refine ⟨rfl, fun h => ?_, fun _ => agreesAt_of_ne_stamp, hreachable, ?_⟩
  · cases h.unit_eq
  · exact (Renderer.renderValue_eq_of_agreesAt boardRenderer stampRenderer boardValue rfl).2
      (· = "stamp") hreachable fun _ => agreesAt_of_ne_stamp

end Render

end Mosaic
