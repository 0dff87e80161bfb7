import Mosaic.Proofs.Discovery.Survey

/-!
# Components whose type comes up again

Of the components that a survey finds, the first of each type is kept, and every other one is
reported, together with the one that is kept in its place. Nothing is lost without a word: each
component is either kept or reported, and which of the two depends on what stands before it only.

* `isRepeat`, `repeats`: the components of types that came up before.
* `keepFirstFrom_append`: the loop from one part of the list to the next, with the sources of all
  components that were kept so far.
* `trace_keepFirst_concat`: what is reported of one more component.
* `KeepsFirst`: what the survivors and the reports tell together; `keepFirst_accounts`.
-/

namespace Mosaic.Discovery

open Registry

/-! ## Repeats -/

/-- Whether the component at a place has a type that came up before. -/
def isRepeat (components : List Component) (placed : Component × Nat) : Bool :=
  placed.1.kind ∈ (components.take placed.2).map Component.kind

/-- The components whose types came up before, in their order. -/
def repeats (components : List Component) : List Component :=
  (components.zipIdx.filter (isRepeat components)).map Prod.fst

/-- What is reported of a component that is dropped because another one is kept. -/
def duplicate (kept dropped : Component) : Log.Event where
  level := .warn
  message := "duplicate component type"
  fields := [("component", dropped.kind), ("kept", kept.source), ("dropped", dropped.source)]

/-- Only what stands before a component decides whether it is a repeat. -/
theorem isRepeat_append {seen : List Component} {placed : Component × Nat}
    (h : placed ∈ seen.zipIdx) (more : List Component) :
    isRepeat (seen ++ more) placed = isRepeat seen placed := by
  have hlt : placed.2 < seen.length := List.snd_lt_of_mem_zipIdx h
  unfold isRepeat
  rw [List.take_append_of_le_length (Nat.le_of_lt hlt)]

/-- One more component is added to the repeats or to the others, if its type came up or did not. -/
theorem filter_zipIdx_concat (f : Bool → Bool) (seen : List Component) (c : Component) :
    ((seen ++ [c]).zipIdx.filter fun placed => f (isRepeat (seen ++ [c]) placed)).map Prod.fst =
      (seen.zipIdx.filter fun placed => f (isRepeat seen placed)).map Prod.fst ++
        if f (c.kind ∈ seen.map Component.kind) then [c] else [] := by
  have hseen : (seen.zipIdx.filter fun placed => f (isRepeat (seen ++ [c]) placed)) =
      seen.zipIdx.filter fun placed => f (isRepeat seen placed) := by
    refine List.filter_congr fun placed hplaced => ?_
    rw [isRepeat_append hplaced]
  have hlast : isRepeat (seen ++ [c]) (c, 0 + seen.length) =
      decide (c.kind ∈ seen.map Component.kind) := by
    unfold isRepeat
    rw [Nat.zero_add, List.take_left]
  rw [List.zipIdx_append, List.filter_append, List.map_append, hseen]
  congr 1
  show ([(c, 0 + seen.length)].filter _).map Prod.fst = _
  rw [List.filter_singleton, hlast]
  cases f (c.kind ∈ seen.map Component.kind) <;> rfl

theorem repeats_concat (seen : List Component) (c : Component) :
    repeats (seen ++ [c]) =
      repeats seen ++ if c.kind ∈ seen.map Component.kind then [c] else [] := by
  have hconcat := filter_zipIdx_concat id seen c
  simp only [id, decide_eq_true_eq] at hconcat
  exact hconcat

/-- The components that are no repeats are the first ones of their types. -/
theorem map_fst_filter_not_isRepeat (components : List Component) :
    (components.zipIdx.filter fun placed => !isRepeat components placed).map Prod.fst =
      firsts components := by
  induction components using List.reverseRecOn with
  | nil => rfl
  | append_singleton seen c ih =>
    rw [filter_zipIdx_concat Bool.not seen c, ih, firsts_concat]
    by_cases hc : c.kind ∈ seen.map Component.kind <;> simp only [hc] <;> rfl

/-- Every component is a first one or a repeat. -/
theorem firsts_append_repeats_perm (components : List Component) :
    (firsts components ++ repeats components).Perm components := by
  have hperm := List.filter_append_perm (isRepeat components) components.zipIdx
  have hall := hperm.map Prod.fst
  rw [List.map_append, List.zipIdx_map_fst, map_fst_filter_not_isRepeat] at hall
  exact List.perm_append_comm.trans hall

/-- Components of distinct types have no repeats. -/
theorem repeats_firsts (components : List Component) : repeats (firsts components) = [] := by
  have hlength := (firsts_append_repeats_perm (firsts components)).length_eq
  rw [firsts_firsts, List.length_append] at hlength
  exact List.length_eq_zero_iff.mp (by omega)

/-! ## The loop -/

/-- **From one part of the list to the next** the loop knows the components that were kept. -/
theorem keepFirstFrom_append (kept : List (String × String)) (seen more : List Component) :
    keepFirstFrom kept (seen ++ more) = (do
      let survivors ← keepFirstFrom kept seen
      let others ← keepFirstFrom (kept ++ survivors.map fun c => (c.kind, c.source)) more
      pure (survivors ++ others)) := by
  induction seen generalizing kept with
  | nil => simp [keepFirstFrom]
  | cons component rest ih =>
    rw [List.cons_append, keepFirstFrom, keepFirstFrom]
    cases kept.lookup component.kind with
    | some source => simp [ih]
    | none => simp [ih]

/-- **One more component** is reported if one of its type was kept, with the source of that one. -/
theorem trace_keepFirst_concat (seen : List Component) (c : Component) :
    (keepFirst (seen ++ [c])).trace = (keepFirst seen).trace ++
      ((firsts seen).find? (·.kind = c.kind)).toList.map (duplicate · c) := by
  have hvalue : (keepFirstFrom [] seen).value = firsts seen := value_keepFirst seen
  unfold keepFirst
  rw [keepFirstFrom_append, Traced.trace_bind, hvalue, List.nil_append, Traced.trace_bind,
    Traced.trace_pure, List.append_nil, keepFirstFrom, lookup_map_mk]
  cases (firsts seen).find? (·.kind = c.kind) with
  | none => rfl
  | some kept => rfl

/-! ## Survivors and reports -/

/-- The event reports that a component was dropped in favour of the survivor of its type. -/
def Reports (survivors : List Component) (dropped : Component) (event : Log.Event) : Prop :=
  ∃ kept ∈ survivors, kept.kind = dropped.kind ∧ event = duplicate kept dropped

/-- Every repeat is reported, in the order of the repeats, and nothing else is. -/
theorem reports_keepFirst (components : List Component) :
    List.Forall₂ (Reports (firsts components)) (repeats components) (keepFirst components).trace := by
  induction components using List.reverseRecOn with
  | nil => exact .nil
  | append_singleton seen c ih =>
    -- what has survived survives
    have hseen : List.Forall₂ (Reports (firsts (seen ++ [c]))) (repeats seen)
        (keepFirst seen).trace := by
      refine ih.imp fun dropped event => ?_
      rintro ⟨kept, hkept, hreport⟩
      refine ⟨kept, ?_, hreport⟩
      rw [firsts_concat]
      exact List.mem_append_left _ hkept
    rw [repeats_concat, trace_keepFirst_concat]
    refine List.rel_append hseen ?_
    by_cases hc : c.kind ∈ seen.map Component.kind
    · -- the survivor of the type is found among those before
      obtain ⟨kept, hkept, hkind⟩ := List.mem_map.mp (mem_map_kind_firsts.mpr hc)
      have hfind : (firsts seen).find? (·.kind = c.kind) = some kept :=
        hkind ▸ find?_name_of_mem (nodup_map_kind_firsts seen) hkept
      rw [if_pos hc, hfind]
      refine .cons ⟨kept, ?_, hkind, rfl⟩ .nil
      rw [firsts_concat]
      exact List.mem_append_left _ hkept
    · have hfind : (firsts seen).find? (·.kind = c.kind) = none := by
        rw [find?_firsts, List.find?_eq_none]
        intro d hd hkind
        exact hc (of_decide_eq_true hkind ▸ List.mem_map_of_mem hd)
      rw [if_neg hc, hfind]
      exact .nil

/-- What it means that of a list of components the first of each type are kept and all others are
reported. -/
structure KeepsFirst (components : List Component) (run : Logged (List Component)) : Prop where
  /-- A component is kept if no component of its type stands before it. -/
  value_eq : run.value =
    (components.zipIdx.filter fun placed => !isRepeat components placed).map Prod.fst
  sublist : run.value.Sublist components
  nodup : (run.value.map Component.kind).Nodup
  mem_kinds : ∀ kind, kind ∈ run.value.map Component.kind ↔ kind ∈ components.map Component.kind
  /-- The survivor of a type is the component that is found first. -/
  find?_eq : ∀ kind, run.value.find? (·.kind = kind) = components.find? (·.kind = kind)
  reports : List.Forall₂ (Reports run.value) (repeats components) run.trace
  /-- The survivors and the components that were reported are all components. -/
  perm : (run.value ++ repeats components).Perm components

/-- **Each component is kept or reported.** The first component of each type is kept, in place and
unchanged, and each other one is reported once, in the order of the list, with its own source and
that of the survivor of its type. What was kept is kept again, without a report. -/
theorem keepFirst_accounts (components : List Component) :
    KeepsFirst components (keepFirst components) ∧
      (keepFirst (keepFirst components).value).value = (keepFirst components).value ∧
      (keepFirst (keepFirst components).value).trace = [] := by
  have hvalue : (keepFirst components).value = firsts components := value_keepFirst components
  -- first what is kept of the components, then the second pass over it
  refine ⟨⟨?_, ?_, ?_, ?_, ?_, ?_, ?_⟩, ?_, ?_⟩
  · rw [hvalue, map_fst_filter_not_isRepeat]
  · rw [hvalue, ← map_fst_filter_not_isRepeat]
    have hsublist : ((components.zipIdx.filter fun placed =>
        !isRepeat components placed).map Prod.fst).Sublist (components.zipIdx.map Prod.fst) :=
      List.filter_sublist.map Prod.fst
    rwa [List.zipIdx_map_fst] at hsublist
  · rw [hvalue]
    exact nodup_map_kind_firsts components
  · intro kind
    rw [hvalue]
    exact mem_map_kind_firsts
  · intro kind
    rw [hvalue, find?_firsts]
  · rw [hvalue]
    exact reports_keepFirst components
  · rw [hvalue]
    exact firsts_append_repeats_perm components
  · rw [value_keepFirst, hvalue, firsts_firsts]
  · have hreports := reports_keepFirst (firsts components)
    rw [repeats_firsts, List.forall₂_nil_left_iff] at hreports
    rw [hvalue, hreports]

/-! ### A type that comes up three times -/

def placedComponent (kind source : String) : Component where
  kind
  category := defaultCategory
  file := kind ++ ".tsx"
  source

/-- Two cards of the project, after one of the library. -/
def crowdedComponents : List Component :=
  [placedComponent "card" "library", placedComponent "chart" "project",
    placedComponent "card" "project", placedComponent "card" "project",
    placedComponent "chart" "package", placedComponent "list" "package"]

/-- Both cards of the project are reported, one by one. -/
theorem keepFirst_accounts_crowdedComponents :
    (keepFirst crowdedComponents).value = [placedComponent "card" "library",
      placedComponent "chart" "project", placedComponent "list" "package"] ∧
    (keepFirst crowdedComponents).trace = [
      duplicate (placedComponent "card" "library") (placedComponent "card" "project"),
      duplicate (placedComponent "card" "library") (placedComponent "card" "project"),
      duplicate (placedComponent "chart" "project") (placedComponent "chart" "package")] ∧
    ((keepFirst crowdedComponents).value ++ repeats crowdedComponents).Perm crowdedComponents :=
  ⟨rfl, rfl, (keepFirst_accounts crowdedComponents).1.perm⟩

end Mosaic.Discovery
