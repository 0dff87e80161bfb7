import Mosaic.Proofs.Render.Lookup

/-!
# Validation on conforming values

Validation asks of a node whether its data has the fields that its schema requires. It shows in
the log and in the tree where a node fails it, and nowhere else: on a value whose nodes have all
that is required of them, a renderer does the same with and without schemas.

* `SchemaStore.Conforms`: a value whose reachable nodes have what the schemas of a store require.
* `Renderer.isMissingField_mem_log_iff`: when the log complains about a missing field.
* `Renderer.log_withSchemas_iff_conforms`: it does not if and only if the value conforms, and
  then the schemas make no difference.
-/

namespace Mosaic

namespace Registry

open Mosaic.Composition

/-- Every reachable node of a value that has a schema has the fields that it requires among the
keys of its data. What stands under a key does not matter, `null` included. -/
def SchemaStore.Conforms (store : SchemaStore) (v : Json) : Prop :=
  ∀ p n, Reachable v p n → ∀ schema, store.get? n.kind = some schema →
    ∀ field ∈ schema.required, field ∈ n.keys

end Registry

namespace Render

open Mosaic.Composition Mosaic.Registry

/-- The warning that a node lacks a required field. -/
def IsMissingField (event : Log.Event) : Prop :=
  event.level = .warn ∧ event.message = "missing required field"

namespace Renderer

variable {α : Type} (r : Renderer α)

/-! ## What is logged -/

/-- The log of rendering a value. -/
def logOf (v : Json) : List Log.Event := (r.renderValue v).trace.filterMap Step.logEvent?

/-- The log has what is to be said of each reachable node. -/
theorem mem_logOf {v : Json} {event : Log.Event} :
    event ∈ r.logOf v ↔ ∃ p n, Reachable v p n ∧ r.complaint? n = some event := by
  rw [logOf, logEvents_eq_of_forall₂ (forall₂_handled_nodesOf r v), List.mem_filterMap]
  constructor
  · rintro ⟨⟨p, n⟩, hn, hcomplaint⟩
    exact ⟨p, n, mem_nodesOf.mp hn, hcomplaint⟩
  · rintro ⟨p, n, hn, hcomplaint⟩
    exact ⟨(p, n), mem_nodesOf.mpr hn, hcomplaint⟩

/-- A node is warned about if it does not pass; that its type has no unit is no warning. -/
theorem isMissingField_complaint?_iff (n : View) :
    (∃ event, r.complaint? n = some event ∧ IsMissingField event) ↔ r.passes n = false := by
  rw [← Bool.not_eq_true, passes_iff_absentField?, complaint?]
  cases r.absentField? n with
  | some field => simp [IsMissingField]
  | none => cases r.units.contains n.kind <;> simp [IsMissingField]

/-- **A warning about a missing field** stands for a reachable node that does not pass. -/
theorem isMissingField_mem_log_iff (v : Json) :
    (∃ event ∈ r.logOf v, IsMissingField event) ↔
      ∃ p n, Reachable v p n ∧ r.passes n = false := by
  constructor
  · rintro ⟨event, hevent, hmissing⟩
    obtain ⟨p, n, hn, hcomplaint⟩ := r.mem_logOf.mp hevent
    exact ⟨p, n, hn, (r.isMissingField_complaint?_iff n).mp ⟨event, hcomplaint, hmissing⟩⟩
  · rintro ⟨p, n, hn, hpasses⟩
    obtain ⟨event, hcomplaint, hmissing⟩ := (r.isMissingField_complaint?_iff n).mpr hpasses
    exact ⟨event, r.mem_logOf.mpr ⟨p, n, hn, hcomplaint⟩, hmissing⟩

/-! ## Schemas that make no difference -/

/-- A node passes if it has what its schema requires, if there is one. -/
theorem passes_withSchemas_iff (store : SchemaStore) (n : View) :
    (r.withSchemas store).passes n = true ↔
      ∀ schema, store.get? n.kind = some schema → ∀ field ∈ schema.required, field ∈ n.keys := by
  have hrequired : (r.withSchemas store).requiredFields n.kind =
      ((store.get? n.kind).map (·.required)).getD [] := rfl
  rw [passes, hrequired]
  cases store.get? n.kind with
  | none => simp
  | some schema => simp

theorem conforms_iff_passes (store : SchemaStore) (v : Json) :
    store.Conforms v ↔ ∀ p n, Reachable v p n → (r.withSchemas store).passes n = true := by
  simp only [SchemaStore.Conforms, passes_withSchemas_iff]

/-- The same renderer without schemas. -/
def withoutSchemas : Renderer α := { r with schemas := none }

theorem passes_withoutSchemas (n : View) : r.withoutSchemas.passes n = true := rfl

/-- A node that passes goes on to dispatch, as if there were no schemas. -/
theorem settlesAs_withoutSchemas {store : SchemaStore} {n : View}
    (h : (r.withSchemas store).passes n = true) :
    (r.withSchemas store).SettlesAs r.withoutSchemas n := by
  intro props hkeys
  -- props are looked at by their keys, and these are the keys of the data
  have hmissing : (r.withSchemas store).firstMissing n.kind props = none := by
    rw [firstMissing_of_keys _ hkeys]
    exact (passes_iff_absentField? _ n).mp h
  have hnone : r.withoutSchemas.firstMissing n.kind props = none := rfl
  rw [settle, settle, hmissing, hnone]
  rfl

theorem renderValue_eq_withoutSchemas {store : SchemaStore} {v : Json} (h : store.Conforms v) :
    (r.withSchemas store).renderValue v = r.withoutSchemas.renderValue v :=
  renderValue_eq_of_settlesAs fun p n hn =>
    r.settlesAs_withoutSchemas ((r.conforms_iff_passes store v).mp h p n hn)

/-- **Validation does not show on values that conform, and shows on all others.** The log of a
value has no warning about a missing field if and only if the value conforms. If it does, its tree
is the one without schemas, and so are all steps on the way to it; if it does not, the steps
differ. -/
theorem log_withSchemas_iff_conforms (store : SchemaStore) (v : Json) :
    ((∀ event ∈ (r.withSchemas store).logOf v, ¬ IsMissingField event) ↔ store.Conforms v) ∧
    (store.Conforms v →
      ((r.withSchemas store).renderValue v).value = (r.withoutSchemas.renderValue v).value) ∧
    (store.Conforms v ↔
      (r.withSchemas store).renderValue v = r.withoutSchemas.renderValue v) := by
  have hlog : (∀ event ∈ (r.withSchemas store).logOf v, ¬ IsMissingField event) ↔
      store.Conforms v := by
    have hwarned := not_congr ((r.withSchemas store).isMissingField_mem_log_iff v)
    rw [conforms_iff_passes r store v]
    push Not at hwarned
    simpa only [Bool.not_eq_false] using hwarned
  refine ⟨hlog, fun h => congrArg Traced.value (r.renderValue_eq_withoutSchemas h), ?_⟩
  refine ⟨r.renderValue_eq_withoutSchemas, fun heq => hlog.mp ?_⟩
  -- without schemas every node passes, so there is nothing to warn about
  intro event hevent hmissing
  rw [logOf, heq] at hevent
  obtain ⟨p, n, -, hpasses⟩ :=
    (r.withoutSchemas.isMissingField_mem_log_iff v).mp ⟨event, hevent, hmissing⟩
  rw [passes_withoutSchemas] at hpasses
  cases hpasses

end Renderer

end Render

end Mosaic
