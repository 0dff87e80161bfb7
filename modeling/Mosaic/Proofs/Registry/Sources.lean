import Mathlib.Data.List.Basic
import Mosaic.Proofs.Dict
import Mosaic.Proofs.Registry.Firsts
import Mosaic.Registry.Manifest

/-!
# The types and sources of a manifest

A manifest is made one component at a time, with two dictionaries that must agree: the
entries of the types and the buckets of the sources. A component whose type is registered
already leaves no mark in either of them, not even an empty bucket.

* `buckets`: the types of a list of components, grouped by source.
* `Index.Coherent`: what the two dictionaries hold after a list of components.
* `Index.Coherent.add`, `coherent_foldl`: one more component, and all of them.
* `accounts_ofComponents`: what follows for the manifest.
-/

namespace Mosaic.Registry

/-! ## Buckets -/

/-- The types of the components of a source, in their order. -/
def bucketOf (components : List Component) (source : String) : List String :=
  (components.filter (·.source = source)).map Component.kind

/-- The buckets of all sources, in the order in which the sources come up. -/
def buckets (components : List Component) : List (String × List String) :=
  (components.map Component.source).eraseDups.map fun source =>
    (source, bucketOf components source)

/-- Each source has one bucket, in the order in which the sources come up. -/
theorem map_fst_buckets (components : List Component) :
    (buckets components).map Prod.fst = (components.map Component.source).eraseDups := by
  rw [buckets, List.map_map]
  exact List.map_id _

/-- Sources that come up nowhere have nothing in their buckets. -/
theorem bucketOf_eq_nil {components : List Component} {source : String}
    (h : source ∉ components.map Component.source) : bucketOf components source = [] := by
  rw [bucketOf, List.map_eq_nil_iff, List.filter_eq_nil_iff]
  intro c hc
  rw [decide_eq_true_eq]
  rintro rfl
  exact h (List.mem_map_of_mem hc)

/-- Without a bucket, a source has no component. -/
theorem getD_lookup_buckets (components : List Component) (source : String) :
    ((buckets components).lookup source).getD [] = bucketOf components source := by
  rw [buckets]
  by_cases hsource : source ∈ components.map Component.source
  · rw [lookup_map_self _ (List.mem_eraseDups.mpr hsource), Option.getD_some]
  · have hnone : (buckets components).lookup source = none := by
      rw [← Option.not_isSome_iff_eq_none, lookup_isSome_iff_mem_keys, map_fst_buckets,
        List.mem_eraseDups]
      exact hsource
    rw [← buckets, hnone, bucketOf_eq_nil hsource, Option.getD_none]

/-- One more component adds its type to the end of one bucket. -/
theorem bucketOf_concat (components : List Component) (c : Component) (source : String) :
    bucketOf (components ++ [c]) source =
      if source = c.source then bucketOf components source ++ [c.kind]
      else bucketOf components source := by
  rw [bucketOf, List.filter_append, List.map_append]
  by_cases hsource : source = c.source
  · rw [if_pos hsource, List.filter_cons_of_pos (by simpa using hsource.symm)]
    rfl
  · rw [if_neg hsource, List.filter_cons_of_neg (by simpa using Ne.symm hsource)]
    exact List.append_nil _

/-- **One more component** goes to the end of the bucket of its source. -/
theorem buckets_concat (components : List Component) (c : Component) :
    buckets (components ++ [c]) =
      putEntry c.source (bucketOf components c.source ++ [c.kind]) (buckets components) := by
  rw [buckets, List.map_append, List.map_singleton, eraseDups_concat]
  by_cases hsource : c.source ∈ components.map Component.source
  · -- the source has a bucket, and only this bucket changes
    rw [if_pos hsource, List.append_nil, buckets,
      putEntry_map _ _ (List.mem_eraseDups.mpr hsource) (nodup_eraseDups _)]
    refine List.map_congr_left fun source _ => ?_
    rw [bucketOf_concat]
    split
    · next heq => rw [heq]
    · rfl
  · -- the source comes up for the first time
    have hnew : c.source ∉ (buckets components).map Prod.fst := by
      rwa [map_fst_buckets, List.mem_eraseDups]
    rw [if_neg hsource, putEntry_of_not_mem _ hnew, List.map_append, List.map_singleton,
      bucketOf_concat, if_pos rfl, buckets]
    congr 1
    refine List.map_congr_left fun source hmem => ?_
    have hne : source ≠ c.source := fun heq => hsource (heq ▸ List.mem_eraseDups.mp hmem)
    rw [bucketOf_concat, if_neg hne]

/-- The buckets hold the types of all components, nothing twice and nothing besides. -/
theorem flatten_buckets (components : List Component) :
    ((buckets components).map Prod.snd).flatten.Perm (components.map Component.kind) := by
  induction components using List.reverseRecOn with
  | nil => exact List.Perm.refl _
  | append_singleton components c ih =>
    rw [buckets_concat, ← getD_lookup_buckets, List.map_append, List.map_singleton]
    exact (flatten_putEntry c.kind (buckets components)).trans (ih.append_right [c.kind])

/-- Every bucket has a component to which it is due. -/
theorem ne_nil_of_mem_buckets {components : List Component} {entry : String × List String}
    (h : entry ∈ buckets components) : entry.2 ≠ [] := by
  obtain ⟨source, hsource, rfl⟩ := List.mem_map.mp h
  obtain ⟨c, hc, hkind⟩ := List.mem_map.mp (List.mem_eraseDups.mp hsource)
  have hmem : c.kind ∈ bucketOf components source :=
    List.mem_map_of_mem (List.mem_filter.mpr ⟨hc, decide_eq_true hkind⟩)
  exact List.ne_nil_of_mem hmem

namespace Manifest

/-! ## The invariant -/

/-- What the dictionaries hold after a list of components: the first component of each
type, and the buckets of these. -/
structure Index.Coherent (index : Index) (seen : List Component) : Prop where
  components_eq : index.components.entries = (firsts seen).map fun c => (c.kind, .ofComponent c)
  sources_eq : index.sources.entries = buckets (firsts seen)

namespace Index.Coherent

/-- Nothing has been listed yet. -/
theorem empty : Index.Coherent {} [] := ⟨rfl, rfl⟩

variable {index : Index} {seen : List Component}

/-- The types are listed in the order of their first components. -/
theorem keys_eq (h : Index.Coherent index seen) :
    index.components.keys = (firsts seen).map Component.kind := by
  rw [Dict.keys, h.components_eq, List.map_map]
  rfl

/-- **One step** of the loop keeps the dictionaries coherent. -/
theorem add (h : Index.Coherent index seen) (c : Component) :
    Index.Coherent (index.add c) (seen ++ [c]) := by
  have hcontains : index.components.contains c.kind = true ↔
      c.kind ∈ seen.map Component.kind := by
    rw [Dict.contains_iff_mem_keys, h.keys_eq, mem_map_kind_firsts]
  by_cases hc : c.kind ∈ seen.map Component.kind
  · -- a repeat: both dictionaries stay
    have hfirsts : firsts (seen ++ [c]) = firsts seen := by
      rw [firsts_concat, if_pos hc, List.append_nil]
    rw [Index.add, if_pos (hcontains.mpr hc)]
    exact ⟨hfirsts ▸ h.components_eq, hfirsts ▸ h.sources_eq⟩
  · -- a new type: both dictionaries grow by the component
    have hfirsts : firsts (seen ++ [c]) = firsts seen ++ [c] := by
      rw [firsts_concat, if_neg hc]
    have hnew : c.kind ∉ index.components.entries.map Prod.fst := by
      rw [← Dict.keys, h.keys_eq, mem_map_kind_firsts]
      exact hc
    rw [Index.add, if_neg (hcontains.not.mpr hc)]
    constructor
    · show putEntry c.kind (.ofComponent c) index.components.entries = _
      rw [putEntry_of_not_mem _ hnew, h.components_eq, hfirsts, List.map_append]
      rfl
    · show putEntry c.source ((index.sources.entries.lookup c.source).getD [] ++ [c.kind])
        index.sources.entries = _
      rw [h.sources_eq, hfirsts, buckets_concat, getD_lookup_buckets]

end Index.Coherent

/-- **The loop** leaves dictionaries that are coherent with all components. -/
theorem coherent_foldl (components : List Component) :
    Index.Coherent (components.foldl Index.add {}) components := by
  -- from the front, so that one more component is one more step
  induction components using List.reverseRecOn with
  | nil => exact Index.Coherent.empty
  | append_singleton seen c ih =>
    rw [List.foldl_concat]
    exact ih.add c

/-! ## The manifest -/

/-- What it means that a manifest accounts for a list of components. -/
structure Accounts (m : Manifest) (components : List Component) : Prop where
  total_eq : m.totalComponents = m.components.size
  /-- The types stand in the order in which they come up. -/
  types_eq : m.types = (components.map Component.kind).eraseDups
  /-- The first component of a type makes its entry. -/
  get?_components : ∀ kind, m.components.get? kind =
    (components.find? (·.kind = kind)).map fun c => {
      description := c.description, schema := c.schema, category := c.category
      file := c.file, source := c.source }
  /-- A type is in the bucket of the source that its entry names, once, and in no other. -/
  count_bucket : ∀ source kind, ((m.sources.get? source).getD []).count kind =
    if (m.components.get? kind).map Entry.source = some source then 1 else 0
  /-- A bucket has its types in the order of the components. -/
  bucket_eq : ∀ source, (m.sources.get? source).getD [] =
    m.types.filter fun kind => (m.components.get? kind).map Entry.source = some source
  /-- The buckets together are the types, nothing twice and nothing besides. -/
  flatten_perm : m.sources.values.flatten.Perm m.types
  bucket_ne_nil : ∀ bucket ∈ m.sources.values, bucket ≠ []
  /-- The sources stand in the order in which the entries name them. -/
  sources_eq : m.sources.keys = (m.components.values.map Entry.source).eraseDups

section

variable (now : Time.Timestamp) (components : List Component)

/-- A manifest lists each type once, in the order of their first components. -/
theorem types_ofComponents :
    (ofComponents now components).types = (firsts components).map Component.kind :=
  (coherent_foldl components).keys_eq

/-- The entry of a type is that of the first component that declares it. -/
theorem get?_components_ofComponents (kind : String) :
    (ofComponents now components).components.get? kind =
      (components.find? (·.kind = kind)).map .ofComponent := by
  show (components.foldl Index.add {}).components.entries.lookup kind = _
  rw [(coherent_foldl components).components_eq, lookup_map_mk, find?_firsts]

/-- The bucket of a source holds the types that it was the first to declare. -/
theorem getD_get?_sources_ofComponents (source : String) :
    ((ofComponents now components).sources.get? source).getD [] =
      bucketOf (firsts components) source := by
  show ((components.foldl Index.add {}).sources.entries.lookup source).getD [] = _
  rw [(coherent_foldl components).sources_eq, getD_lookup_buckets]

/-- The entry of a component that is kept names its source. -/
theorem source_of_mem_firsts {c : Component} (hc : c ∈ firsts components) :
    ((ofComponents now components).components.get? c.kind).map Entry.source = some c.source := by
  rw [get?_components_ofComponents, ← find?_firsts,
    find?_name_of_mem (nodup_map_kind_firsts components) hc]
  rfl

/-- A bucket lists the types whose entry names the source, in the order of the types. -/
theorem bucket_eq_filter (source : String) :
    ((ofComponents now components).sources.get? source).getD [] =
      (ofComponents now components).types.filter fun kind =>
        ((ofComponents now components).components.get? kind).map Entry.source = some source := by
  rw [getD_get?_sources_ofComponents, types_ofComponents, List.filter_map, bucketOf]
  congr 1
  refine List.filter_congr fun c hc => ?_
  simp only [Function.comp_apply, source_of_mem_firsts now components hc, Option.some.injEq]

/-- No type is listed twice. -/
theorem nodup_types_ofComponents : (ofComponents now components).types.Nodup := by
  rw [types_ofComponents]
  exact nodup_map_kind_firsts components

/-- A type is in the bucket of the source that its entry names, once, and in no other. -/
theorem count_bucket_ofComponents (source kind : String) :
    (((ofComponents now components).sources.get? source).getD []).count kind =
      if ((ofComponents now components).components.get? kind).map Entry.source = some source
      then 1 else 0 := by
  rw [bucket_eq_filter]
  split
  · next hsource =>
    -- a type with an entry is among the types, and these are distinct
    have hmem : kind ∈ (ofComponents now components).types := by
      rw [types_ofComponents, mem_map_kind_firsts]
      rw [get?_components_ofComponents, Option.map_map, Option.map_eq_some_iff] at hsource
      obtain ⟨c, hfind, -⟩ := hsource
      have hkind : c.kind = kind := by simpa using List.find?_some hfind
      exact hkind ▸ List.mem_map_of_mem (List.mem_of_find?_eq_some hfind)
    rw [List.count_filter (by simpa using hsource),
      List.count_eq_one_of_mem (nodup_types_ofComponents now components) hmem]
  · next hsource =>
    rw [List.count_eq_zero, List.mem_filter, decide_eq_true_eq]
    exact fun h => hsource h.2

/-- The sources of the buckets are those of the entries. -/
theorem keys_sources_ofComponents :
    (ofComponents now components).sources.keys =
      ((ofComponents now components).components.values.map Entry.source).eraseDups := by
  have hcoherent := coherent_foldl components
  show (components.foldl Index.add {}).sources.entries.map Prod.fst =
    (((components.foldl Index.add {}).components.entries.map Prod.snd).map Entry.source).eraseDups
  rw [hcoherent.sources_eq, hcoherent.components_eq, map_fst_buckets, List.map_map, List.map_map]
  rfl

/-- The buckets together hold every type once. -/
theorem flatten_sources_ofComponents :
    (ofComponents now components).sources.values.flatten.Perm
      (ofComponents now components).types := by
  have hcoherent := coherent_foldl components
  show ((components.foldl Index.add {}).sources.entries.map Prod.snd).flatten.Perm _
  rw [hcoherent.sources_eq, types_ofComponents]
  exact flatten_buckets (firsts components)

/-- No bucket is empty: a source whose types are all taken has none. -/
theorem ne_nil_of_mem_sources {bucket : List String}
    (h : bucket ∈ (ofComponents now components).sources.values) : bucket ≠ [] := by
  have hcoherent := coherent_foldl components
  change bucket ∈ (components.foldl Index.add {}).sources.entries.map Prod.snd at h
  rw [hcoherent.sources_eq] at h
  obtain ⟨entry, hentry, rfl⟩ := List.mem_map.mp h
  exact ne_nil_of_mem_buckets hentry

/-- **The manifest of a list accounts for it**, whatever types and sources repeat. -/
theorem accounts_ofComponents : Accounts (ofComponents now components) components where
  total_eq := rfl
  types_eq := by rw [types_ofComponents, map_kind_firsts]
  get?_components := get?_components_ofComponents now components
  count_bucket := count_bucket_ofComponents now components
  bucket_eq := bucket_eq_filter now components
  flatten_perm := flatten_sources_ofComponents now components
  bucket_ne_nil := fun _ => ne_nil_of_mem_sources now components
  sources_eq := keys_sources_ofComponents now components

/-- A repeat from a source of which nothing is kept leaves no bucket. -/
example (now : Time.Timestamp) :
    (ofComponents now [
      { kind := "card", category := "layout", file := "Card.tsx", source := "library" },
      { kind := "card", category := "layout", file := "Card.tsx", source := "package" },
      { kind := "chat", category := "general", file := "Chat.tsx", source := "project" },
      { kind := "list", category := "layout", file := "List.tsx", source := "library" }]
    ).sources.entries = [("library", ["card", "list"]), ("project", ["chat"])] := rfl

end

end Manifest

end Mosaic.Registry
