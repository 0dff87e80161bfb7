import Mathlib.Data.List.Forall2
import Mosaic.Proofs.Composition.Postorder
import Mosaic.Proofs.Render.Nodes

/-!
# Every reachable node is dealt with once

The steps on the way to a tree, one for each reachable node of the value and in
post-order. That a node ends as a placeholder does not matter to the nodes below it:
they have been dealt with before.

* `Handled`: what may become of a node.
* `forall₂_handled_nodesOf`: the steps match the nodes in post-order, one to one.
* `renderValue_steps`: the same together with what can be observed of it, that is the
  invocations, the events that consumers hear, and the log.
-/

namespace Mosaic.Render

open Mosaic.Composition Mosaic.Registry

/-- The invocation of a unit that a step stands for: the component, the sink that the
unit was given, and the events that it sent. -/
def Step.invocation? : Step → Option (String × EventSink × List Event)
  | .invoked component sink events => some (component, sink, events)
  | _ => none

namespace Renderer

variable {α : Type}

/-! ## What becomes of a node -/

/-- The fields that the schema of a component requires; none without a schema. -/
def requiredFields (r : Renderer α) (kind : String) : List String :=
  ((r.schemas.bind (·.get? kind)).map (·.required)).getD []

/-- The first required field that is no key of a node's data. -/
def absentField? (r : Renderer α) (n : View) : Option String :=
  (r.requiredFields n.kind).find? fun field => !n.keys.contains field

/-- Whether a node's data has every required field. -/
def passes (r : Renderer α) (n : View) : Bool :=
  (r.requiredFields n.kind).all n.keys.contains

/-- Whether a node passes and a unit is registered for its type. -/
def invokes (r : Renderer α) (n : View) : Bool := r.passes n && r.units.contains n.kind

/-- The events that the unit of a node sends, given the props of the node and the sink
of the renderer. -/
def eventsOf (r : Renderer α) (n : View) : List Event :=
  match r.units.get? n.kind with
  | some unit => (unit (r.props n.entries).value r.sink).events
  | none => []

/-- What the log says of a node: a missing field is a warning and a missing unit is
worth a debug event. -/
def complaint? (r : Renderer α) (n : View) : Option Log.Event :=
  match r.absentField? n with
  | some field =>
    some ⟨.warn, "missing required field", [("component", n.kind), ("field", field)]⟩
  | none =>
    if r.units.contains n.kind then none
    else some ⟨.debug, "no unit registered", [("component", n.kind)]⟩

/-- What may become of a node. Its unit is invoked, with the sink of the renderer, unless
a required field is missing or no unit is registered. -/
inductive Handled (r : Renderer α) (n : View) : Step → Prop
  | invoked {unit : RenderUnit α} :
      r.passes n = true → r.units.get? n.kind = some unit →
      Handled r n (.invoked n.kind r.sink (unit (r.props n.entries).value r.sink).events)
  | missingField {field : String} :
      r.absentField? n = some field → Handled r n (.missingField n.kind field)
  | unregistered :
      r.passes n = true → r.units.get? n.kind = none → Handled r n (.unregistered n.kind)

theorem passes_iff_absentField? (r : Renderer α) (n : View) :
    r.passes n = true ↔ r.absentField? n = none := by
  simp [passes, absentField?]

/-- Validation looks at the keys of the props, and those are the keys of the data. -/
theorem firstMissing_of_keys (r : Renderer α) {n : View} {props : Props α}
    (h : props.map Prod.fst = n.keys) : r.firstMissing n.kind props = r.absentField? n := by
  rw [firstMissing, h, absentField?, requiredFields]
  cases r.schemas.bind (·.get? n.kind) <;> rfl

theorem firstMissing_props (r : Renderer α) (n : View) :
    r.firstMissing n.kind (r.props n.entries).value = r.absentField? n :=
  firstMissing_of_keys r (keys_props r n)

theorem contains_units (r : Renderer α) (kind : String) :
    r.units.contains kind = (r.units.get? kind).isSome := rfl

/-- **One node, one step.** -/
theorem handled_settle (r : Renderer α) (n : View) :
    ∃ step, (r.settle n.kind (r.props n.entries).value).trace = [step] ∧ Handled r n step := by
  rw [settle, firstMissing_props]
  cases hfield : r.absentField? n with
  | some field => exact ⟨_, rfl, .missingField hfield⟩
  | none =>
    have hpasses := (passes_iff_absentField? r n).mpr hfield
    cases hunit : r.units.get? n.kind with
    | some unit => exact ⟨_, rfl, .invoked hpasses hunit⟩
    | none => exact ⟨_, rfl, .unregistered hpasses hunit⟩

namespace Handled

variable {r : Renderer α} {n : View} {step : Step}

theorem invocation?_eq (h : Handled r n step) :
    step.invocation? = if r.invokes n then some (n.kind, r.sink, r.eventsOf n) else none := by
  cases h with
  | invoked hpasses hunit =>
    simp [Step.invocation?, invokes, hpasses, contains_units, hunit, eventsOf]
  | missingField hfield =>
    have hpasses : r.passes n = false := by
      rw [← Bool.not_eq_true, passes_iff_absentField?, hfield]
      exact Option.some_ne_none _
    simp [Step.invocation?, invokes, hpasses]
  | unregistered hpasses hunit => simp [Step.invocation?, invokes, contains_units, hunit]

theorem delivered_eq (h : Handled r n step) :
    step.delivered = if r.invokes n then (r.eventsOf n).flatMap r.sink.deliver else [] := by
  have hinvocation := h.invocation?_eq
  cases h with
  | invoked hpasses hunit =>
    simp [Step.delivered, invokes, hpasses, contains_units, hunit, eventsOf]
  | _ =>
    -- no invocation, hence nothing to hear
    split at hinvocation
    · cases hinvocation
    · next hinvokes => rw [if_neg hinvokes]; rfl

theorem logEvent?_eq (h : Handled r n step) : step.logEvent? = r.complaint? n := by
  cases h with
  | invoked hpasses hunit =>
    rw [passes_iff_absentField?] at hpasses
    simp [Step.logEvent?, complaint?, hpasses, contains_units, hunit]
  | missingField hfield => simp [Step.logEvent?, complaint?, hfield]
  | unregistered hpasses hunit =>
    rw [passes_iff_absentField?] at hpasses
    simp [Step.logEvent?, complaint?, hpasses, contains_units, hunit]

end Handled

/-! ## All nodes -/

/-- Steps that match lists of occurrences also match when those are hung up at places. -/
theorem forall₂_flatMap_under {r : Renderer α} {places : List (Place × View)}
    {f : View → List (Place × View)} {g : View → List Step}
    (h : ∀ o ∈ places, List.Forall₂ (fun o step => Handled r o.2 step) (f o.2) (g o.2)) :
    List.Forall₂ (fun o step => Handled r o.2 step)
      (places.flatMap fun o => (f o.2).map (under o.1)) (places.flatMap fun o => g o.2) := by
  induction places with
  | nil => exact .nil
  | cons o rest ih =>
    rw [List.flatMap_cons, List.flatMap_cons]
    refine List.rel_append ?_ (ih fun p hp => h p (List.mem_cons_of_mem _ hp))
    exact List.forall₂_map_left_iff.mpr (h o (List.mem_cons_self ..))

/-- The steps at and below a node match its post-order list. -/
theorem forall₂_handled_postorder (r : Renderer α) (n : View) :
    List.Forall₂ (fun o step => Handled r o.2 step) n.postorder (r.node n).trace := by
  induction n using View.nested_induction with
  | step n ih =>
    obtain ⟨step, htrace, hstep⟩ := handled_settle r n
    rw [View.postorder_eq, trace_node, htrace]
    -- the children first, by induction, and the step of the node at the end
    refine List.rel_append ?_ (.cons hstep .nil)
    exact forall₂_flatMap_under (f := View.postorder) (g := fun m => (r.node m).trace)
      fun o ho => ih o.1 o.2 (mem_children.mp ho)

/-- Below the top the nodes reached through arrays are rendered from left to right. -/
theorem trace_item (r : Renderer α) (v : Json) :
    (r.item v).trace = (roots v).flatMap fun root => (r.node root.2).trace := by
  induction v using array_induction with
  | array items ih =>
    rw [item_array, Traced.trace_map, Traced.trace_mapM, roots_array, List.flatMap_assoc]
    -- the elements come with their indices on one side only
    conv_lhs => rw [← List.zipIdx_map_fst 0 items, List.flatMap_map]
    refine List.flatMap_congr fun item hitem => ?_
    rw [List.flatMap_map, ih item.1 (List.fst_mem_of_mem_zipIdx hitem)]
    rfl
  | other v hne =>
    rw [roots_of_not_array hne, nodeHere]
    rcases shape_cases v with ⟨items, rfl⟩ | ⟨n, hview⟩ | hother
    · exact absurd rfl (hne items)
    · rw [item_of_view? r hview, hview]
      simp
    · rw [item_of_other r hother, view?_of_other hother]
      rfl

/-- The layout of the outermost sequence does not matter to the steps. -/
theorem trace_renderValue (r : Renderer α) (v : Json) :
    (r.renderValue v).trace = (r.item v).trace := by
  cases v with
  | array items => rw [renderValue, item]; rfl
  | _ => rw [renderValue]; simp

/-- **The steps match the reachable nodes in post-order, one to one.** -/
theorem forall₂_handled_nodesOf (r : Renderer α) (v : Json) :
    List.Forall₂ (fun o step => Handled r o.2 step) (nodesOf v) (r.renderValue v).trace := by
  rw [trace_renderValue, trace_item, nodesOf]
  exact forall₂_flatMap_under (f := View.postorder) (g := fun m => (r.node m).trace)
    fun o _ => forall₂_handled_postorder r o.2

/-! ## What can be observed -/

section Observed

variable {r : Renderer α} {nodes : List (Place × View)} {steps : List Step}

theorem invocations_eq_of_forall₂
    (h : List.Forall₂ (fun o step => Handled r o.2 step) nodes steps) :
    steps.filterMap Step.invocation? =
      (nodes.filter fun o => r.invokes o.2).map fun o => (o.2.kind, r.sink, r.eventsOf o.2) := by
  induction h with
  | nil => rfl
  | @cons o step _ _ hstep _ ih =>
    rw [List.filterMap_cons, hstep.invocation?_eq, ih, List.filter_cons]
    cases r.invokes o.2 <;> simp

theorem delivered_eq_of_forall₂
    (h : List.Forall₂ (fun o step => Handled r o.2 step) nodes steps) :
    steps.flatMap Step.delivered =
      (nodes.filter fun o => r.invokes o.2).flatMap fun o =>
        (r.eventsOf o.2).flatMap r.sink.deliver := by
  induction h with
  | nil => rfl
  | @cons o step _ _ hstep _ ih =>
    rw [List.flatMap_cons, hstep.delivered_eq, ih, List.filter_cons]
    cases r.invokes o.2 <;> simp

theorem logEvents_eq_of_forall₂
    (h : List.Forall₂ (fun o step => Handled r o.2 step) nodes steps) :
    steps.filterMap Step.logEvent? = nodes.filterMap fun o => r.complaint? o.2 := by
  induction h with
  | nil => rfl
  | cons hstep _ ih => rw [List.filterMap_cons, List.filterMap_cons, hstep.logEvent?_eq, ih]

end Observed

/-- **Every reachable node is dealt with once, in post-order, and nothing else is.** The
nodes that pass validation and have a unit are the invocations, in that order, and what
consumers hear and what is logged follows it as well. -/
theorem renderValue_steps (r : Renderer α) (v : Json) :
    InPostorder v (nodesOf v) ∧ (∀ nodes, InPostorder v nodes → nodes = nodesOf v) ∧
    ((nodesOf v).map Prod.fst).Nodup ∧
    List.Forall₂ (fun o step => Handled r o.2 step) (nodesOf v) (r.renderValue v).trace ∧
    (r.renderValue v).trace.filterMap Step.invocation? =
      ((nodesOf v).filter fun o => r.invokes o.2).map
        (fun o => (o.2.kind, r.sink, r.eventsOf o.2)) ∧
    (r.renderValue v).trace.flatMap Step.delivered =
      ((nodesOf v).filter fun o => r.invokes o.2).flatMap
        (fun o => (r.eventsOf o.2).flatMap r.sink.deliver) ∧
    (r.renderValue v).trace.filterMap Step.logEvent? =
      (nodesOf v).filterMap (fun o => r.complaint? o.2) := by
  have hsteps := forall₂_handled_nodesOf r v
  have horder := inPostorder_nodesOf v
  exact ⟨horder, fun _ h => h.unique, horder.nodup, hsteps,
    invocations_eq_of_forall₂ hsteps, delivered_eq_of_forall₂ hsteps,
    logEvents_eq_of_forall₂ hsteps⟩

end Renderer

end Mosaic.Render
