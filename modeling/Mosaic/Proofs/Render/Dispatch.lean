import Mosaic.Proofs.Merged
import Mosaic.Proofs.Render.Skeleton
import Mosaic.Proofs.Render.Trace

/-!
# What a node becomes

A renderer is told which units override its own, which sink to use and which schemas to check,
in any order and as often as one likes. Of this a node sees the latest word only: the latest
override that has a unit for its type, the latest sink, the latest schemas.

* `Setting`, `configure`: a renderer that has been told something.
* `answer_configure`: the latest word counts, for units, sinks and schemas alike.
* `IsProp`, `AreProps`: what a unit is given for the data of a node.
* `renderValue_of_node`: what a node becomes.
-/

namespace Mosaic.Render

open Mosaic.Composition Mosaic.Registry

/-- A tree that is no row. -/
def Rendered.IsLeaf {α : Type} (tree : Rendered α) : Prop :=
  (∃ component output, tree = .unit component output) ∨ ∃ p, tree = .placeholder p

namespace Renderer

variable {α : Type}

/-! ## Settings -/

/-- What a renderer can be told. -/
inductive Setting (α : Type)
  | overrides (units : UnitMap α)
  | sink (sink : EventSink)
  | schemas (store : SchemaStore)

namespace Setting

/-- The renderer with one more setting, which comes before what was set earlier. -/
def apply (r : Renderer α) : Setting α → Renderer α
  | .overrides units => r.withOverrides units
  | .sink target => r.withSink target
  | .schemas store => r.withSchemas store

/-- The unit that a setting provides for a type, if it is one of units. -/
def unit? (kind : String) : Setting α → Option (RenderUnit α)
  | .overrides units => units.get? kind
  | _ => none

/-- The sink that a setting names, if it is one of sinks. -/
def sink? : Setting α → Option EventSink
  | .sink target => some target
  | _ => none

/-- The store that a setting names, if it is one of schemas. -/
def store? : Setting α → Option SchemaStore
  | .schemas store => some store
  | _ => none

end Setting

/-- The renderer after it has been told some things, one after the other. -/
def configure (r : Renderer α) (settings : List (Setting α)) : Renderer α :=
  settings.foldl Setting.apply r

/-- What the latest setting says that says anything. -/
def latest {β : Type} (ask : Setting α → Option β) (settings : List (Setting α)) : Option β :=
  settings.reverse.findSome? ask

/-- The unit for a type that the last override with one has, or else the renderer itself. -/
def unitFor (r : Renderer α) (settings : List (Setting α)) (kind : String) :
    Option (RenderUnit α) :=
  (latest (Setting.unit? kind) settings).or (r.units.get? kind)

/-- The sink of a configured renderer: the one that was set last, or that of the renderer. -/
def sinkFor (r : Renderer α) (settings : List (Setting α)) : EventSink :=
  (latest Setting.sink? settings).getD r.sink

/-- The schema for a type in the store that was named last. -/
def schemaFor (r : Renderer α) (settings : List (Setting α)) (kind : String) : Option Schema :=
  ((latest Setting.store? settings).or r.schemas).bind (·.get? kind)

/-- Of several settings the last one answers, and the ones before it only if it has no answer. -/
theorem latest_cons {β : Type} (ask : Setting α → Option β) (setting : Setting α)
    (rest : List (Setting α)) :
    latest ask (setting :: rest) = (latest ask rest).or (ask setting) := by
  rw [latest, latest, List.reverse_cons, List.findSome?_append, List.findSome?_singleton]

/-- **The latest word counts** for whatever each setting replaces or leaves as it is. -/
theorem answer_configure {β : Type} (answer : Renderer α → Option β)
    {ask : Setting α → Option β}
    (hstep : ∀ r setting, answer (setting.apply r) = (ask setting).or (answer r))
    (r : Renderer α) (settings : List (Setting α)) :
    answer (r.configure settings) = (latest ask settings).or (answer r) := by
  induction settings generalizing r with
  | nil => rfl
  | cons setting rest ih =>
    show answer ((setting.apply r).configure rest) = _
    rw [ih, hstep, latest_cons, Option.or_assoc]

/-- **Units** of a configured renderer: the last override with a unit for the type, else its own. -/
theorem get?_units_configure (r : Renderer α) (settings : List (Setting α)) (kind : String) :
    (r.configure settings).units.get? kind = unitFor r settings kind := by
  refine answer_configure (fun r => r.units.get? kind) (fun r setting => ?_) r settings
  cases setting with
  | overrides units => exact Dict.get?_merge r.units.units units.units kind
  | _ => rfl

/-- **The sink** of a configured renderer is the one that was set last. -/
theorem sink_configure (r : Renderer α) (settings : List (Setting α)) :
    (r.configure settings).sink = sinkFor r settings := by
  have hsink : some (r.configure settings).sink =
      (latest Setting.sink? settings).or (some r.sink) := by
    refine answer_configure (fun r => some r.sink) (fun r setting => ?_) r settings
    cases setting <;> rfl
  rw [sinkFor, ← Option.some_inj, hsink]
  cases latest Setting.sink? settings <;> rfl

/-- **Schemas** of a configured renderer come from the store that was set last, and from it alone.
-/
theorem get?_schemas_configure (r : Renderer α) (settings : List (Setting α)) (kind : String) :
    (r.configure settings).schemas.bind (·.get? kind) = schemaFor r settings kind := by
  have hstore : (r.configure settings).schemas =
      (latest Setting.store? settings).or r.schemas := by
    refine answer_configure Renderer.schemas (fun r setting => ?_) r settings
    cases setting <;> rfl
  rw [hstore, schemaFor]

/-! ## Props -/

section

variable (r : Renderer α)

/-- What becomes of an element of an array that has a node among its elements. -/
structure IsElement (item : Json) (element : PropValue α) : Prop where
  component : ∀ tree,
    element = .component tree ↔ isNode item ∧ tree = (r.renderValue item).value
  value : ∀ value, element = .value value ↔ ¬ isNode item ∧ value = item
  leaf : ∀ tree, element = .component tree → tree.IsLeaf

/-- What becomes of a value of a node's data: a component of a node, a list of an array that has
a node among its elements, and of anything else the value itself. -/
structure IsProp (value : Json) (prop : PropValue α) : Prop where
  component : ∀ tree,
    prop = .component tree ↔ isNode value ∧ tree = (r.renderValue value).value
  list : ∀ elements, prop = .list elements ↔
    ∃ items, value = .array items ∧ (∃ item ∈ items, isNode item) ∧
      List.Forall₂ (IsElement r) items elements
  value : ∀ same, prop = .value same ↔
    ¬ isNode value ∧ (¬ ∃ items, value = .array items ∧ ∃ item ∈ items, isNode item) ∧
      same = value
  leaf : ∀ tree, prop = .component tree → tree.IsLeaf

/-- Props with the keys of some entries, in the same order. -/
def AreProps (entries : List (String × Json)) (props : Props α) : Prop :=
  List.Forall₂ (fun entry prop => prop.1 = entry.1 ∧ IsProp r entry.2 prop.2) entries props

variable {r}

theorem not_isNode_array (items : List Json) : ¬ isNode (.array items) := Bool.false_ne_true

/-- A tree that is neither a row nor a stack has nothing inside. -/
theorem isLeaf_of_frame? {tree : Rendered α} (h : tree.frame? = none) : tree.IsLeaf := by
  cases tree with
  | row layout children => cases h
  | unit component output => exact .inl ⟨component, output, rfl⟩
  | placeholder p => exact .inr ⟨p, rfl⟩

/-- **A node is a unit or a placeholder**, and never a row. -/
theorem isLeaf_renderValue (r : Renderer α) {value : Json} (h : isNode value) :
    (r.renderValue value).value.IsLeaf := by
  have hne : ∀ items, value ≠ .array items := by
    rintro items rfl
    exact not_isNode_array items h
  rw [renderValue_of_not_array r hne]
  exact isLeaf_of_frame? (frame?_item_of_not_array r hne)

/-- A node among the data is rendered as it would be on its own. -/
theorem value_propItem_of_isNode (r : Renderer α) {value : Json} (h : isNode value) :
    (r.propItem value).value = .component (r.renderValue value).value := by
  rw [isNode_iff_view?, Option.isSome_iff_exists] at h
  obtain ⟨n, hview⟩ := h
  rw [propItem_of_view? r hview, Traced.value_map,
    renderValue_of_not_array r (ne_array_of_view? hview), item_of_view? r hview]

/-- An element that is no node is passed on as a value. -/
theorem value_propItem_of_not_isNode (r : Renderer α) {value : Json} (h : ¬ isNode value) :
    (r.propItem value).value = .value value := by
  rw [isNode_iff_view?, Option.not_isSome_iff_eq_none] at h
  rw [propItem_of_not_node r h]
  rfl

/-- What becomes of an element of an array is what the rule for elements says. -/
theorem isElement_propItem (r : Renderer α) (item : Json) :
    IsElement r item (r.propItem item).value := by
  by_cases hnode : isNode item
  · rw [value_propItem_of_isNode r hnode]
    refine ⟨fun tree => ?_, fun value => ?_, ?_⟩
    · rw [PropValue.component.injEq, and_iff_right hnode, eq_comm]
    · exact ⟨nofun, fun h => absurd hnode h.1⟩
    · rintro tree ⟨rfl⟩
      exact isLeaf_renderValue r hnode
  · rw [value_propItem_of_not_isNode r hnode]
    refine ⟨fun tree => ?_, fun value => ?_, nofun⟩
    · exact ⟨nofun, fun h => absurd h.1 hnode⟩
    · rw [PropValue.value.injEq, and_iff_right hnode, eq_comm]

/-- The rule for elements leaves no choice. -/
theorem IsElement.unique {item : Json} {element other : PropValue α}
    (h : IsElement r item element) (hother : IsElement r item other) : other = element := by
  by_cases hnode : isNode item
  · rw [(h.component _).mpr ⟨hnode, rfl⟩, (hother.component _).mpr ⟨hnode, rfl⟩]
  · rw [(h.value _).mpr ⟨hnode, rfl⟩, (hother.value _).mpr ⟨hnode, rfl⟩]

/-- Nor does it for all elements of an array. -/
theorem elements_unique {items : List Json} {elements others : List (PropValue α)}
    (h : List.Forall₂ (IsElement r) items elements)
    (hothers : List.Forall₂ (IsElement r) items others) : others = elements :=
  List.right_unique_forall₂' (fun _ _ _ h h' => h'.unique h) hothers h

/-- A value that is a node becomes a component, and no other kind of prop. -/
theorem isProp_component (r : Renderer α) {value : Json} (h : isNode value) :
    IsProp r value (.component (r.renderValue value).value) where
  component tree := by rw [PropValue.component.injEq, and_iff_right h, eq_comm]
  list elements := ⟨nofun, fun ⟨items, heq, _⟩ => absurd (heq ▸ h) (not_isNode_array items)⟩
  value same := ⟨nofun, fun hsame => absurd h hsame.1⟩
  leaf := by
    rintro tree ⟨rfl⟩
    exact isLeaf_renderValue r h

/-- An array with a node in it becomes a list of what its elements become. -/
theorem isProp_list {items : List Json} {elements : List (PropValue α)}
    (hnode : ∃ item ∈ items, isNode item) (h : List.Forall₂ (IsElement r) items elements) :
    IsProp r (.array items) (.list elements) where
  component tree := ⟨nofun, fun htree => absurd htree.1 (not_isNode_array items)⟩
  list others := by
    constructor
    · rintro ⟨rfl⟩
      exact ⟨items, rfl, hnode, h⟩
    · rintro ⟨_, ⟨rfl⟩, -, hothers⟩
      rw [elements_unique h hothers]
  value same := ⟨nofun, fun hsame => absurd ⟨items, rfl, hnode⟩ hsame.2.1⟩
  leaf := nofun

/-- A value is passed on as it is, unless it is a node or an array with a node in it. -/
theorem isProp_value {value : Json} (hnode : ¬ isNode value)
    (hlist : ¬ ∃ items, value = .array items ∧ ∃ item ∈ items, isNode item) :
    IsProp r value (.value value) where
  component tree := ⟨nofun, fun htree => absurd htree.1 hnode⟩
  list elements := ⟨nofun, fun ⟨items, heq, hitem, _⟩ => absurd ⟨items, heq, hitem⟩ hlist⟩
  value same := by
    rw [PropValue.value.injEq, and_iff_right hnode, and_iff_right hlist, eq_comm]
  leaf := nofun

/-- **What becomes of a value of a node's data.** -/
theorem isProp_prop (r : Renderer α) (value : Json) : IsProp r value (r.prop value).value := by
  cases value using array_cases with
  | array items =>
    rw [prop_array]
    -- an array is a list if one of its items is a node, and else it is passed as it is
    split
    · next hany =>
      rw [Traced.value_map, Traced.value_mapM]
      refine isProp_list (List.any_eq_true.mp hany) ?_
      rw [List.forall₂_map_right_iff]
      exact List.forall₂_same.mpr fun item _ => isElement_propItem r item
    · next hany =>
      refine isProp_value (not_isNode_array items) ?_
      rintro ⟨_, ⟨rfl⟩, hnode⟩
      exact hany (List.any_eq_true.mpr hnode)
  | other value hne =>
    rw [prop_of_not_array r hne]
    by_cases hnode : isNode value
    · rw [value_propItem_of_isNode r hnode]
      exact isProp_component r hnode
    · rw [value_propItem_of_not_isNode r hnode]
      exact isProp_value hnode fun ⟨items, heq, _⟩ => hne items heq

/-- The rule for props leaves no choice. -/
theorem IsProp.unique {value : Json} {prop other : PropValue α} (h : IsProp r value prop)
    (hother : IsProp r value other) : other = prop := by
  cases prop with
  | value same => exact (hother.value same).mpr ((h.value same).mp rfl)
  | component tree => exact (hother.component tree).mpr ((h.component tree).mp rfl)
  | list elements => exact (hother.list elements).mpr ((h.list elements).mp rfl)

/-- The props of a renderer obey the rule, one for each entry and in the order of the entries. -/
theorem areProps_props (r : Renderer α) (entries : List (String × Json)) :
    AreProps r entries (r.props entries).value := by
  rw [value_props]
  exact List.forall₂_map_right_iff.mpr
    (List.forall₂_same.mpr fun entry _ => ⟨rfl, isProp_prop r entry.2⟩)

/-- The rule for all props of a node leaves no choice either. -/
theorem AreProps.unique {entries : List (String × Json)} {props others : Props α}
    (h : AreProps r entries props) (hothers : AreProps r entries others) : others = props :=
  List.right_unique_forall₂'
    (fun _ _ _ h h' => Prod.ext (h.1.trans h'.1.symm) (h'.2.unique h.2)) hothers h

end

/-! ## Nodes -/

/-- The first of some required fields that is no key. -/
def FirstAbsent (required keys : List String) (field : String) : Prop :=
  ∃ before after, required = before ++ field :: after ∧ field ∉ keys ∧ ∀ name ∈ before, name ∈ keys

/-- The field that is reported is the first required one that the data lacks. -/
theorem absentField?_eq_some_iff (r : Renderer α) (n : View) (field : String) :
    r.absentField? n = some field ↔
      ∃ schema, r.schemas.bind (·.get? n.kind) = some schema ∧
        FirstAbsent schema.required n.keys field := by
  rw [absentField?, requiredFields]
  cases r.schemas.bind (·.get? n.kind) with
  | none => simp
  | some schema =>
    simp only [Option.map_some, Option.getD_some, List.find?_eq_some_iff_append, FirstAbsent,
      Option.some_inj, exists_eq_left', Bool.not_eq_true', List.contains_eq_mem,
      decide_eq_false_iff_not, Bool.not_not, decide_eq_true_eq]
    constructor
    · rintro ⟨habsent, before, after, hsplit, hbefore⟩
      exact ⟨before, after, hsplit, habsent, hbefore⟩
    · rintro ⟨before, after, hsplit, habsent, hbefore⟩
      exact ⟨habsent, before, after, hsplit, hbefore⟩

/-- Validation comes first, then dispatch. -/
theorem value_node_eq (r : Renderer α) (n : View) :
    (r.node n).value =
      match r.absentField? n with
      | some field => .placeholder (.missingField n.kind field)
      | none =>
        match r.units.get? n.kind with
        | some unit => .unit n.kind (unit (r.props n.entries).value r.sink).output
        | none => .placeholder (.unknown n.kind) := by
  rw [value_node, settle, firstMissing_props]
  cases r.absentField? n with
  | some field => rfl
  | none => cases r.units.get? n.kind <;> rfl

/-- **A missing field** is reported in place of a node if the schema requires a field that the data
lacks, and of such fields the first. -/
theorem value_node_eq_missingField_iff (r : Renderer α) (n : View) (component field : String) :
    (r.node n).value = .placeholder (.missingField component field) ↔
      component = n.kind ∧ r.absentField? n = some field := by
  rw [value_node_eq]
  cases r.absentField? n with
  | some absent =>
    rw [Rendered.placeholder.injEq, Placeholder.missingField.injEq, Option.some_inj,
      eq_comm (a := n.kind)]
  | none => cases r.units.get? n.kind <;> simp

/-- The shape of a node says what is seen of it; without data it has no entries. -/
theorem view?_of_shape {value : Json} {kind : String} {data : Option (List (String × Json))}
    (h : Shape.of value = .node kind data) : view? value = some ⟨kind, data.getD []⟩ := by
  rw [view?, h]

/-- **What a node becomes**, whatever the renderer has been told. It is a complaint about the
first required field that its data lacks, whether or not there is a unit for its type. If it
lacks none, it is what the latest unit for its type makes of the props and the sink, or unknown
if there is no such unit. The props are one for each entry of the data. -/
theorem renderValue_of_node (r : Renderer α) (settings : List (Setting α)) {v : Json}
    {kind : String} {data : Option (List (String × Json))} (hv : Shape.of v = .node kind data) :
    (∀ component field,
      ((r.configure settings).renderValue v).value =
          .placeholder (.missingField component field) ↔
        component = kind ∧ ∃ schema, schemaFor r settings kind = some schema ∧
          FirstAbsent schema.required ((data.getD []).map Prod.fst) field) ∧
    (∃! props, AreProps (r.configure settings) (data.getD []) props) ∧
    ∀ props, AreProps (r.configure settings) (data.getD []) props →
      (∀ component field, ((r.configure settings).renderValue v).value ≠
        .placeholder (.missingField component field)) →
      (∀ unit, unitFor r settings kind = some unit →
        ((r.configure settings).renderValue v).value =
          .unit kind (unit props (sinkFor r settings)).output) ∧
      (unitFor r settings kind = none →
        ((r.configure settings).renderValue v).value = .placeholder (.unknown kind)) := by
  have hview := view?_of_shape hv
  -- the value is no array, so that the top does not count, and the node is all that is rendered
  have hvalue : ((r.configure settings).renderValue v).value =
      ((r.configure settings).node ⟨kind, data.getD []⟩).value := by
    rw [renderValue_of_not_array _ (ne_array_of_view? hview), item_of_view? _ hview]
  have hprops := areProps_props (r.configure settings) (data.getD [])
  rw [hvalue]
  refine ⟨fun component field => ?_, ⟨_, hprops, fun _ h => hprops.unique h⟩, ?_⟩
  · rw [value_node_eq_missingField_iff, absentField?_eq_some_iff, get?_schemas_configure]
    rfl
  · intro props hothers hpasses
    -- the props are those that the renderer makes, since no others have their form
    obtain rfl := hprops.unique hothers
    have habsent : (r.configure settings).absentField? ⟨kind, data.getD []⟩ = none := by
      refine Option.eq_none_iff_forall_ne_some.mpr fun field hfield => hpasses kind field ?_
      exact (value_node_eq_missingField_iff _ _ _ _).mpr ⟨rfl, hfield⟩
    rw [value_node_eq, habsent, get?_units_configure, sink_configure]
    refine ⟨fun unit hunit => ?_, fun hunit => ?_⟩
    · rw [hunit]
    · rw [hunit]

end Renderer

/-! ### A menu whose renderer is told several things -/

open Renderer

/-- Shows a style and the names of the props. -/
def styled (style : String) (props : Props (List String)) (_ : EventSink) :
    Outcome (List String) :=
  ⟨style :: props.map Prod.fst, []⟩

/-- A renderer with units for menus and dishes that hand back the names of what they are given. -/
def menuRenderer : Renderer (List String) where
  units := ⟨.ofList [("menu", styled "plain")]⟩

/-- The second override says nothing about menus, and dishes need a name. -/
def menuSettings : List (Setting (List String)) := [
  .overrides ⟨.ofList [("menu", styled "framed")]⟩,
  .schemas (.ofList [("dish", { required := ["price", "name", "price"] })]),
  .overrides ⟨.ofList [("dish", styled "round")]⟩]

/-- The data of a dish, which has no name. -/
def dishEntries : List (String × Json) := [("price", .null)]

def dish : Json := .object [("type", .string "dish"), ("data", .object dishEntries)]

/-- The data of a menu with two dishes. -/
def menuEntries : List (String × Json) :=
  [("title", .string "lunch"), ("courses", .array [.string "soup", dish])]

def menu : Json := .object [("type", .string "menu"), ("data", .object menuEntries)]

/-- The menu is framed, and the dish has no name, although there is a unit for dishes. -/
theorem renderValue_of_node_menu :
    Shape.of dish = .node "dish" (some dishEntries) ∧
    Shape.of menu = .node "menu" (some menuEntries) ∧
    ((menuRenderer.configure menuSettings).renderValue dish).value =
      .placeholder (.missingField "dish" "name") ∧
    ((menuRenderer.configure menuSettings).renderValue menu).value =
      .unit "menu" ["framed", "title", "courses"] := by
  refine ⟨rfl, rfl, ?_, ?_⟩
  · refine ((renderValue_of_node menuRenderer menuSettings (v := dish) rfl).1 _ _).mpr ?_
    exact ⟨rfl, _, rfl, ["price"], ["price"], rfl, by decide, by decide⟩
  · obtain ⟨hmissing, ⟨props, hprops, -⟩, hpasses⟩ :=
      renderValue_of_node menuRenderer menuSettings (v := menu) rfl
    -- there is no schema for menus
    have hpass : ∀ component field,
        ((menuRenderer.configure menuSettings).renderValue menu).value ≠
          .placeholder (.missingField component field) := by
      intro component field hfield
      obtain ⟨-, schema, hschema, -⟩ := (hmissing component field).mp hfield
      cases hschema
    rw [(hpasses props hprops hpass).1 (styled "framed") rfl, styled]
    cases hprops with
    | cons htitle hrest =>
      cases hrest with
      | cons hcourses hnil =>
        cases hnil
        rw [List.map_cons, List.map_cons, htitle.1, hcourses.1]
        rfl

end Mosaic.Render
