import Mosaic.Proofs.Dict
import Mosaic.Registry.Component

/-!
# The first component of each type

Wherever components are collected, the first one of a type stays and later ones are
passed over. `firsts` says this without a collection: among the components so far, a new
one stays if and only if its type is new.

* `firsts_concat`: what one more component does to the list.
* `map_kind_firsts`: the types, each once, in the order in which they come up.
* `firsts_firsts`: nothing is left to be passed over.
* `find?_firsts`: the component that stays is the first one of its type.
-/

namespace Mosaic.Registry

/-! ## First components -/

/-- The components that no component of the same type precedes. -/
def firsts (components : List Component) : List Component :=
  components.eraseDupsBy fun later earlier => later.kind == earlier.kind

theorem firsts_cons (c : Component) (rest : List Component) :
    firsts (c :: rest) = c :: firsts (rest.filter fun d => d.kind ≠ c.kind) := by
  rw [firsts, List.eraseDupsBy_cons, firsts]
  simp only [beq_eq_false_iff_ne]

/-- Of two lists one after the other, the second adds the types that the first lacks. -/
theorem firsts_append (seen more : List Component) :
    firsts (seen ++ more) =
      firsts seen ++ firsts (more.filter fun d => d.kind ∉ seen.map Component.kind) := by
  -- the rest of `seen` is filtered before it is looked at, so its length counts
  induction h : seen.length using Nat.strongRecOn generalizing seen more with
  | ind size ih =>
    subst h
    cases seen with
    | nil => simp [firsts]
    | cons c rest =>
      have hlt : (rest.filter fun d => d.kind ≠ c.kind).length < (c :: rest).length :=
        Nat.lt_succ_of_le (List.length_filter_le _ _)
      rw [List.cons_append, firsts_cons, firsts_cons, List.filter_append, ih _ hlt _ _ rfl,
        List.cons_append, List.filter_filter]
      congr 3
      -- a type other than that of `c` is new to the rest if it is new to what is left of it
      refine List.filter_congr fun d _ => ?_
      by_cases hd : d.kind = c.kind
      · simp [hd]
      · have hrest : d.kind ∈ (rest.filter fun e => e.kind ≠ c.kind).map Component.kind ↔
            d.kind ∈ rest.map Component.kind := by
          rw [List.mem_map, List.mem_map]
          constructor
          · rintro ⟨e, he, hkind⟩
            exact ⟨e, List.mem_of_mem_filter he, hkind⟩
          · rintro ⟨e, he, hkind⟩
            exact ⟨e, List.mem_filter.mpr ⟨he, by simpa [hkind] using hd⟩, hkind⟩
        have hcons : d.kind ∈ (c :: rest).map Component.kind ↔
            d.kind ∈ rest.map Component.kind := by
          rw [List.map_cons, List.mem_cons, or_iff_right hd]
        simp only [hrest, hcons, hd, ne_eq, not_false_eq_true, decide_true, Bool.and_true]

/-- **One more component** stays if its type is new, and changes nothing otherwise. -/
theorem firsts_concat (seen : List Component) (c : Component) :
    firsts (seen ++ [c]) =
      firsts seen ++ if c.kind ∈ seen.map Component.kind then [] else [c] := by
  rw [firsts_append]
  by_cases hc : c.kind ∈ seen.map Component.kind
  · rw [if_pos hc, List.filter_cons_of_neg (by simpa using hc)]
    rfl
  · rw [if_neg hc, List.filter_cons_of_pos (by simpa using hc)]
    rfl

theorem mem_of_mem_firsts {components : List Component} {component : Component}
    (h : component ∈ firsts components) : component ∈ components := by
  induction components using List.reverseRecOn with
  | nil => exact h
  | append_singleton seen last ih =>
    rw [firsts_concat, List.mem_append] at h
    rw [List.mem_append]
    refine h.imp ih fun hlast => ?_
    split at hlast
    · cases hlast
    · exact hlast

theorem length_firsts_le (components : List Component) :
    (firsts components).length ≤ components.length := by
  induction components using List.reverseRecOn with
  | nil => exact Nat.le_refl _
  | append_singleton seen c ih =>
    rw [firsts_concat, List.length_append, List.length_append, List.length_singleton]
    split
    · exact Nat.le_succ_of_le ih
    · exact Nat.succ_le_succ ih

/-- The types of the first components are the types of all, each once. -/
theorem map_kind_firsts (components : List Component) :
    (firsts components).map Component.kind = (components.map Component.kind).eraseDups := by
  induction components using List.reverseRecOn with
  | nil => rfl
  | append_singleton seen c ih =>
    rw [firsts_concat, List.map_append, List.map_append, List.map_singleton, eraseDups_concat, ih]
    split <;> rfl

theorem nodup_map_kind_firsts (components : List Component) :
    ((firsts components).map Component.kind).Nodup := by
  rw [map_kind_firsts]
  exact nodup_eraseDups _

theorem mem_map_kind_firsts {components : List Component} {kind : String} :
    kind ∈ (firsts components).map Component.kind ↔ kind ∈ components.map Component.kind := by
  rw [map_kind_firsts, List.mem_eraseDups]

/-- Among components of distinct types every one stays. -/
theorem firsts_of_nodup {components : List Component}
    (h : (components.map Component.kind).Nodup) : firsts components = components := by
  induction components using List.reverseRecOn with
  | nil => rfl
  | append_singleton seen c ih =>
    rw [List.map_append, List.map_singleton, List.nodup_append] at h
    have hc : c.kind ∉ seen.map Component.kind :=
      fun hmem => h.2.2 c.kind hmem c.kind (List.mem_singleton_self _) rfl
    rw [firsts_concat, if_neg hc, ih h.1]

theorem firsts_firsts (components : List Component) :
    firsts (firsts components) = firsts components :=
  firsts_of_nodup (nodup_map_kind_firsts components)

/-- The component that stays is the first one of its type. -/
theorem find?_firsts (components : List Component) (kind : String) :
    (firsts components).find? (·.kind = kind) = components.find? (·.kind = kind) := by
  induction components using List.reverseRecOn with
  | nil => rfl
  | append_singleton seen c ih =>
    rw [firsts_concat, List.find?_append, List.find?_append, ih]
    by_cases hc : c.kind ∈ seen.map Component.kind
    · rw [if_pos hc, List.find?_nil, Option.or_none]
      by_cases hkind : c.kind = kind
      · -- the type came up before, so that `c` is not reached
        obtain ⟨d, hd, hdkind⟩ := List.mem_map.mp hc
        have hsome : (seen.find? (·.kind = kind)).isSome := by
          rw [List.find?_isSome]
          exact ⟨d, hd, by simp [hdkind, hkind]⟩
        rw [Option.or_of_isSome hsome]
      · rw [List.find?_cons_of_neg (by simpa using hkind), List.find?_nil, Option.or_none]
    · rw [if_neg hc]

end Mosaic.Registry
