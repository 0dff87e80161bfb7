import Mosaic.Proofs.Discovery.Survey
import Mosaic.Proofs.Registry.Sources
import Mosaic.Proofs.Render.Lookup

/-!
# The schemas of a registry

Components of equal types are told apart in four places: when they are discovered, when a
manifest is made of them, when a store is made of them, and when a store is made of a manifest.
Each place lets the first component of a type stay. So it does not matter in which of them the
others are dropped.

* `SchemaStore.Holds`: the schemas that a store has of components.
* `SchemaStore.holds_ofComponents`, `SchemaStore.holds_ofManifest`: the two ways to a store.
* `SchemaStore.Holds.agrees`: renderers with such stores get the same answers.
* `Manifest.ofComponents_firsts`: the manifest of the first components.
* `stores_agree`: all ways to a store, compared.
-/

namespace Mosaic.Registry

open Render

namespace SchemaStore

/-- What it means that a store holds the schemas of components: it has their types, each with the
schema of the first component of that type. -/
structure Holds (store : SchemaStore) (components : List Component) : Prop where
  types_eq : store.types = (components.map Component.kind).eraseDups.mergeSort
  get?_eq : ∀ kind, store.get? kind =
    (components.find? (·.kind = kind)).map fun c => .ofJson c.schema

/-- The types of components with their schemas, the first of each type. -/
def schemaEntries (components : List Component) : List (String × Schema) :=
  (firsts components).map fun c => (c.kind, .ofJson c.schema)

theorem keys_schemaEntries (components : List Component) :
    (schemaEntries components).map Prod.fst = (firsts components).map Component.kind := by
  rw [schemaEntries, List.map_map]
  rfl

theorem holds_of_entries {store : SchemaStore} {components : List Component}
    (h : store.schemas.entries = schemaEntries components) : store.Holds components where
  types_eq := by
    rw [types, Dict.sortedKeys, Dict.keys, h, keys_schemaEntries, map_kind_firsts]
  get?_eq kind := by
    rw [get?, Dict.get?, h, schemaEntries, lookup_map_mk, find?_firsts]

/-! ## Stores of components -/

/-- One more component is entered if its type is new. -/
theorem entries_ofComponents (components : List Component) :
    (ofComponents components).schemas.entries = schemaEntries components := by
  -- from the front, so that one more component is one more step of the loop
  induction components using List.reverseRecOn with
  | nil => rfl
  | append_singleton seen c ih =>
    have hstep : (ofComponents (seen ++ [c])).schemas =
        (ofComponents seen).schemas.insertIfNew c.kind (.ofJson c.schema) := by
      rw [ofComponents, List.foldl_concat]
      rfl
    have hkeys : (ofComponents seen).schemas.keys = (firsts seen).map Component.kind := by
      rw [Dict.keys, ih, keys_schemaEntries]
    have hcontains : (ofComponents seen).schemas.contains c.kind = true ↔
        c.kind ∈ seen.map Component.kind := by
      rw [Dict.contains_iff_mem_keys, hkeys, mem_map_kind_firsts]
    rw [hstep, Dict.insertIfNew, schemaEntries, firsts_concat]
    -- a type that is there already changes neither the store nor the first components
    by_cases hc : c.kind ∈ seen.map Component.kind
    · rw [if_pos (hcontains.mpr hc), if_pos hc, List.append_nil, ih, schemaEntries]
    · have hnew : c.kind ∉ (ofComponents seen).schemas.entries.map Prod.fst := by
        rw [← Dict.keys, hkeys, mem_map_kind_firsts]
        exact hc
      rw [if_neg (hcontains.not.mpr hc), if_neg hc, List.map_append, ← schemaEntries, ← ih]
      exact putEntry_of_not_mem _ hnew

theorem holds_ofComponents (components : List Component) :
    (ofComponents components).Holds components :=
  holds_of_entries (entries_ofComponents components)

/-! ## Stores of manifests -/

/-- A manifest lists a type once, so that its store takes over all entries. -/
theorem entries_ofManifest (now : Time.Timestamp) (components : List Component) :
    (ofManifest (Manifest.ofComponents now components)).schemas.entries =
      schemaEntries components := by
  have hentries : (Manifest.ofComponents now components).components.entries =
      (firsts components).map fun c => (c.kind, .ofComponent c) :=
    (Manifest.coherent_foldl components).components_eq
  have hpairs : (Manifest.ofComponents now components).components.entries.map
      (fun entry => (entry.1, Schema.ofJson entry.2.schema)) = schemaEntries components := by
    rw [hentries, List.map_map]
    rfl
  rw [ofManifest, ofList, hpairs]
  refine Dict.entries_ofList ?_
  rw [keys_schemaEntries]
  exact nodup_map_kind_firsts components

theorem holds_ofManifest (now : Time.Timestamp) (components : List Component) :
    (ofManifest (Manifest.ofComponents now components)).Holds components :=
  holds_of_entries (entries_ofManifest now components)

/-! ## What stores are used for -/

variable {store other : SchemaStore} {components : List Component}

/-- What holds the schemas of the first components holds the schemas of all. -/
theorem Holds.of_firsts (h : store.Holds (firsts components)) : store.Holds components where
  types_eq := by rw [h.types_eq, ← map_kind_firsts, firsts_firsts, map_kind_firsts]
  get?_eq kind := by rw [h.get?_eq, find?_firsts]

/-- **Renderers with stores of the same components** get the same answers. -/
theorem Holds.agrees {α : Type} (r : Renderer α) (h : store.Holds components)
    (hother : other.Holds components) : (r.withSchemas store).Agrees (r.withSchemas other) where
  sink_eq := rfl
  unit_eq _ := rfl
  schema_eq kind := (h.get?_eq kind).trans (hother.get?_eq kind).symm

end SchemaStore

/-! ## Manifests -/

namespace Manifest

/-- The manifest of the first components is that of all, made at another time. -/
theorem ofComponents_firsts (now now' : Time.Timestamp) (components : List Component) :
    ofComponents now' (firsts components) =
      { ofComponents now components with generatedAt := now' } := by
  have hall := coherent_foldl components
  have hfirst := coherent_foldl (firsts components)
  have hcomponents : ((firsts components).foldl Index.add {}).components =
      (components.foldl Index.add {}).components := by
    apply Dict.ext
    rw [hfirst.components_eq, hall.components_eq, firsts_firsts]
  have hsources : ((firsts components).foldl Index.add {}).sources =
      (components.foldl Index.add {}).sources := by
    apply Dict.ext
    rw [hfirst.sources_eq, hall.sources_eq, firsts_firsts]
  rw [ofComponents, ofComponents, hcomponents, hsources]

end Manifest

/-! ## All ways to a store -/

open SchemaStore in
/-- **The first component of a type counts, wherever the others are dropped.** Stores made
directly or through a manifest, of all components or of those that discovery keeps, hold the same
schemas and serve every renderer equally, and the manifests differ in their time only. -/
theorem stores_agree (now now' : Time.Timestamp) (components : List Component) :
    let kept := (Discovery.keepFirst components).value
    let stores := [ofComponents components, ofComponents kept,
      ofManifest (.ofComponents now components), ofManifest (.ofComponents now' kept)]
    (∀ store ∈ stores, store.Holds components) ∧
    (∀ {α : Type} (r : Renderer α) (input : Input), ∀ store ∈ stores, ∀ other ∈ stores,
      (r.withSchemas store).render input = (r.withSchemas other).render input) ∧
    Manifest.ofComponents now' kept =
      { Manifest.ofComponents now components with generatedAt := now' } := by
  intro kept stores
  have hkept : kept = firsts components := Discovery.value_keepFirst components
  -- each of the stores holds the first schemas, so that no two of them can differ
  have hholds : ∀ store ∈ stores, store.Holds components := by
    simp only [stores, hkept, List.forall_mem_cons]
    exact ⟨holds_ofComponents components, (holds_ofComponents _).of_firsts,
      holds_ofManifest now components, (holds_ofManifest now' _).of_firsts, by simp⟩
  refine ⟨hholds, ?_, ?_⟩
  · intro α r input store hstore other hother
    exact ((hholds store hstore).agrees r (hholds other hother)).render_eq input
  · rw [hkept]
    exact Manifest.ofComponents_firsts now now' components

end Mosaic.Registry
