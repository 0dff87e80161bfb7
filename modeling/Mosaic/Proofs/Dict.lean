import Mathlib.Data.List.Basic
import Mathlib.Data.List.Induction
import Mathlib.Data.List.Nodup
import Mathlib.Data.List.Sort
import Mathlib.Data.String.Basic
import Mosaic.Dict

/-!
# Dictionaries as lists of entries

* `eraseDups_concat`, `nodup_eraseDups`: values without repetitions.
* `putEntry_of_not_mem`, `putEntry_eq_map`, `putEntry_map`: what `putEntry` does to a list of
  entries whose keys are known.
* `lookup_putEntry_self`, `lookup_putEntry_of_ne`, `putEntry_putEntry`, `putEntry_of_lookup`:
  what is found after `putEntry`, what is left of a second one, and when it changes nothing.
* `flatten_putEntry`: adding to a bucket adds to all buckets together.
* `mem_of_lookup`, `lookup_of_mem`: what is found is there, and what is there is found if the keys
  are distinct.
* `lookup_map_mk`, `lookup_map_snd`, `find?_name_of_mem`: looking up in a list of entries made of
  other values.
* `lookup_eq_of_perm`, `lookup_append_cons`, `bind_lookup_replace`: looking up in entries that
  changed places, that got one more, or of which one has another value.
* `Dict.entries_ofList`: the dictionary of pairs with distinct keys.
* `Dict.sortedLT_sortedKeys`, `Dict.mem_sortedKeys`, `Dict.length_sortedKeys`: the keys of a
  dictionary in order.
-/

namespace Mosaic

/-! ## Distinct values -/

section

variable {α : Type} [DecidableEq α]

/-- A new value is appended if it has not come up before. -/
theorem eraseDups_concat (xs : List α) (x : α) :
    (xs ++ [x]).eraseDups = xs.eraseDups ++ if x ∈ xs then [] else [x] := by
  rw [List.eraseDups_append]
  by_cases hx : x ∈ xs
  · have hnone : [x].removeAll xs = [] := by simp [List.removeAll, hx]
    rw [hnone, if_pos hx, List.eraseDups_nil]
  · have hone : [x].removeAll xs = [x] := by simp [List.removeAll, hx]
    rw [hone, if_neg hx, List.eraseDups_cons]
    rfl

theorem nodup_eraseDups (xs : List α) : xs.eraseDups.Nodup := by
  induction xs using List.reverseRecOn with
  | nil => exact List.nodup_nil
  | append_singleton xs x ih =>
    rw [eraseDups_concat]
    by_cases hx : x ∈ xs
    · rwa [if_pos hx, List.append_nil]
    · rw [if_neg hx, List.nodup_append_comm, List.singleton_append, List.nodup_cons,
        List.mem_eraseDups]
      exact ⟨hx, ih⟩

end

/-! ## Setting an entry -/

section

variable {α : Type} {key : String}

theorem lookup_isSome_iff_mem_keys {entries : List (String × α)} :
    (entries.lookup key).isSome ↔ key ∈ entries.map Prod.fst := by
  rw [List.lookup_isSome_iff, List.mem_map]
  constructor
  · rintro ⟨entry, hentry, hkey⟩
    exact ⟨entry, hentry, (beq_iff_eq.mp hkey).symm⟩
  · rintro ⟨entry, hentry, hkey⟩
    exact ⟨entry, hentry, beq_iff_eq.mpr hkey.symm⟩

theorem lookup_eq_none_iff_not_mem_keys {entries : List (String × α)} :
    entries.lookup key = none ↔ key ∉ entries.map Prod.fst := by
  rw [← lookup_isSome_iff_mem_keys, Option.not_isSome_iff_eq_none]

theorem mem_of_lookup {entries : List (String × α)} {value : α}
    (h : entries.lookup key = some value) : (key, value) ∈ entries := by
  obtain ⟨seen, rest, rfl, -⟩ := List.lookup_eq_some_iff.mp h
  exact List.mem_append_right seen (List.mem_cons_self ..)

/-- Among entries with distinct keys, each is found by its key. -/
theorem lookup_of_mem {entries : List (String × α)} {value : α}
    (hdistinct : (entries.map Prod.fst).Nodup) (h : (key, value) ∈ entries) :
    entries.lookup key = some value := by
  obtain ⟨found, hfound⟩ := Option.isSome_iff_exists.mp
    (lookup_isSome_iff_mem_keys.mpr (List.mem_map_of_mem h))
  have hsame : (key, found) = (key, value) :=
    List.inj_on_of_nodup_map hdistinct (mem_of_lookup hfound) h rfl
  rw [hfound, (Prod.mk.inj hsame).2]

/-- Among entries with distinct keys, no earlier one has the key of a later one. -/
theorem not_mem_keys_of_nodup {seen rest : List (String × α)} {value : α}
    (h : ((seen ++ (key, value) :: rest).map Prod.fst).Nodup) : key ∉ seen.map Prod.fst := by
  rw [List.map_append, List.map_cons] at h
  exact fun hmem => (List.nodup_append.mp h).2.2 key hmem key (List.mem_cons_self ..) rfl

/-- A new key is appended. -/
theorem putEntry_of_not_mem (value : α) {entries : List (String × α)}
    (h : key ∉ entries.map Prod.fst) : putEntry key value entries = entries ++ [(key, value)] := by
  induction entries with
  | nil => rfl
  | cons entry rest ih =>
    rw [List.map_cons, List.mem_cons, not_or] at h
    rw [putEntry, if_neg (Ne.symm h.1), ih h.2, List.cons_append]

/-- An entry among entries with distinct keys is replaced, and the others stay. -/
theorem putEntry_eq_map (value : α) {entries : List (String × α)}
    (hmem : key ∈ entries.map Prod.fst) (hnodup : (entries.map Prod.fst).Nodup) :
    putEntry key value entries =
      entries.map fun entry => if entry.1 = key then (key, value) else entry := by
  induction entries with
  | nil => cases hmem
  | cons entry rest ih =>
    rw [List.map_cons, List.nodup_cons] at hnodup
    rw [List.map_cons, putEntry]
    by_cases hk : entry.1 = key
    · -- the key does not come again
      have hrest : rest.map (fun other => if other.1 = key then (key, value) else other) = rest := by
        refine (List.map_congr_left fun other hother => if_neg ?_).trans (List.map_id rest)
        rintro rfl
        exact hnodup.1 (hk ▸ List.mem_map_of_mem hother)
      rw [if_pos hk, if_pos hk, hrest]
    · have hrest : key ∈ rest.map Prod.fst := (List.mem_cons.mp hmem).resolve_left (Ne.symm hk)
      rw [if_neg hk, if_neg hk, ih hrest hnodup.2]

/-- The same for entries that are made of their keys. -/
theorem putEntry_map (value : α) (f : String → α) {keys : List String} (hmem : key ∈ keys)
    (hnodup : keys.Nodup) :
    putEntry key value (keys.map fun k => (k, f k)) =
      keys.map fun k => (k, if k = key then value else f k) := by
  have hkeys : (keys.map fun k => (k, f k)).map Prod.fst = keys := by
    rw [List.map_map]
    exact List.map_id keys
  rw [putEntry_eq_map value (hkeys.symm ▸ hmem) (hkeys.symm ▸ hnodup), List.map_map]
  refine List.map_congr_left fun k _ => ?_
  by_cases hk : k = key <;> simp [hk]

theorem lookup_putEntry_self (value : α) (entries : List (String × α)) :
    (putEntry key value entries).lookup key = some value := by
  induction entries with
  | nil => exact List.lookup_cons_self
  | cons entry rest ih =>
    obtain ⟨k, v⟩ := entry
    rw [putEntry]
    by_cases hk : k = key
    · rw [if_pos hk, List.lookup_cons_self]
    · rw [if_neg hk, List.lookup_cons, beq_eq_false_iff_ne.mpr (Ne.symm hk)]
      exact ih

theorem lookup_putEntry_of_ne {other : String} (h : other ≠ key) (value : α)
    (entries : List (String × α)) :
    (putEntry key value entries).lookup other = entries.lookup other := by
  induction entries with
  | nil =>
    rw [putEntry, List.lookup_cons, beq_eq_false_iff_ne.mpr h]
  | cons entry rest ih =>
    obtain ⟨k, v⟩ := entry
    rw [putEntry]
    by_cases hk : k = key
    · rw [if_pos hk, List.lookup_cons, List.lookup_cons, hk, beq_eq_false_iff_ne.mpr h]
    · rw [if_neg hk, List.lookup_cons, List.lookup_cons, ih]

/-- Of two values for a key the last one counts. -/
theorem putEntry_putEntry (value value' : α) (entries : List (String × α)) :
    putEntry key value' (putEntry key value entries) = putEntry key value' entries := by
  induction entries with
  | nil => exact if_pos rfl
  | cons entry rest ih =>
    obtain ⟨k, v⟩ := entry
    rw [putEntry, putEntry]
    by_cases hk : k = key
    · rw [if_pos hk, if_pos hk, putEntry, if_pos rfl]
    · rw [if_neg hk, if_neg hk, putEntry, if_neg hk, ih]

/-- Setting an entry to the value that it has changes nothing. -/
theorem putEntry_of_lookup {value : α} {entries : List (String × α)}
    (h : entries.lookup key = some value) : putEntry key value entries = entries := by
  induction entries with
  | nil => cases h
  | cons entry rest ih =>
    obtain ⟨k, v⟩ := entry
    rw [putEntry]
    by_cases hk : k = key
    · rw [hk, List.lookup_cons_self, Option.some_inj] at h
      rw [if_pos hk, hk, h]
    · rw [List.lookup_cons, beq_eq_false_iff_ne.mpr (Ne.symm hk)] at h
      rw [if_neg hk, ih h]

/-- A value added to the bucket of a key is added to all buckets together. -/
theorem flatten_putEntry (x : α) (entries : List (String × List α)) :
    ((putEntry key ((entries.lookup key).getD [] ++ [x]) entries).map Prod.snd).flatten.Perm
      ((entries.map Prod.snd).flatten ++ [x]) := by
  induction entries with
  | nil => exact List.Perm.refl _
  | cons entry rest ih =>
    obtain ⟨k, bucket⟩ := entry
    rw [putEntry, List.map_cons, List.flatten_cons]
    by_cases hk : k = key
    · subst hk
      rw [if_pos rfl, List.lookup_cons_self, Option.getD_some, List.map_cons, List.flatten_cons,
        List.append_assoc, List.append_assoc]
      exact List.Perm.append_left bucket List.perm_append_comm
    · have hbeq : (key == k) = false := beq_eq_false_iff_ne.mpr (Ne.symm hk)
      rw [if_neg hk, List.lookup_cons, hbeq, List.map_cons, List.flatten_cons, List.append_assoc]
      exact List.Perm.append_left bucket ih

end

/-! ## Lookups -/

/-- A lookup in a list of entries made of values finds the first value with the key. -/
theorem lookup_map_mk {α β : Type} (name : α → String) (f : α → β) (xs : List α) (key : String) :
    (xs.map fun x => (name x, f x)).lookup key = (xs.find? (name · = key)).map f := by
  induction xs with
  | nil => rfl
  | cons x rest ih =>
    rw [List.map_cons, List.lookup_cons]
    by_cases hkey : name x = key
    · rw [List.find?_cons_of_pos (by simpa using hkey), beq_iff_eq.mpr hkey.symm]
      rfl
    · rw [List.find?_cons_of_neg (by simpa using hkey), beq_eq_false_iff_ne.mpr (Ne.symm hkey)]
      exact ih

/-- A lookup finds the value that stands in the place of the one found before. -/
theorem lookup_map_snd {α β : Type} (f : α → β) (entries : List (String × α)) (key : String) :
    (entries.map fun entry => (entry.1, f entry.2)).lookup key = (entries.lookup key).map f := by
  induction entries with
  | nil => rfl
  | cons entry rest ih =>
    rw [List.map_cons, List.lookup_cons, List.lookup_cons, ih]
    cases key == entry.1 <;> rfl

/-- Among values with distinct names, a value is found by its name. -/
theorem find?_name_of_mem {α : Type} {name : α → String} {xs : List α}
    (hnodup : (xs.map name).Nodup) {x : α} (hx : x ∈ xs) :
    xs.find? (name · = name x) = some x := by
  induction xs with
  | nil => cases hx
  | cons y rest ih =>
    rw [List.map_cons, List.nodup_cons] at hnodup
    rcases List.mem_cons.mp hx with rfl | hrest
    · exact List.find?_cons_of_pos (decide_eq_true rfl)
    · have hne : name y ≠ name x := fun heq => hnodup.1 (heq ▸ List.mem_map_of_mem hrest)
      rw [List.find?_cons_of_neg (by simpa using hne)]
      exact ih hnodup.2 hrest

/-- In a list of keys with their values, a key is found with its value. -/
theorem lookup_map_self {α : Type} (f : String → α) {keys : List String} {key : String}
    (hkey : key ∈ keys) : (keys.map fun k => (k, f k)).lookup key = some (f key) := by
  induction keys with
  | nil => cases hkey
  | cons k rest ih =>
    rw [List.map_cons, List.lookup_cons]
    by_cases hk : key = k
    · rw [hk, beq_self_eq_true]
    · rw [beq_eq_false_iff_ne.mpr hk]
      exact ih ((List.mem_cons.mp hkey).resolve_left hk)

section

variable {α β : Type} {key : String}

/-- Where entries have distinct keys, their order does not matter. -/
theorem lookup_eq_of_perm {entries others : List (String × α)}
    (hdistinct : (entries.map Prod.fst).Nodup) (hperm : entries.Perm others) :
    others.lookup key = entries.lookup key := by
  have hdistinct' : (others.map Prod.fst).Nodup := (hperm.map Prod.fst).nodup hdistinct
  cases hlookup : entries.lookup key with
  | none =>
    rw [lookup_eq_none_iff_not_mem_keys] at hlookup ⊢
    exact fun hmem => hlookup ((hperm.map Prod.fst).mem_iff.mpr hmem)
  | some value => exact lookup_of_mem hdistinct' (hperm.subset (mem_of_lookup hlookup))

/-- An entry in between is found if it is asked for, and not found before. -/
theorem lookup_append_cons (before after : List (String × α)) (other : String) (value : α) :
    (before ++ (other, value) :: after).lookup key =
      (before.lookup key).or (if key = other then some value else after.lookup key) := by
  rw [List.lookup_append, List.lookup_cons]
  by_cases hkey : key = other
  · rw [if_pos hkey, beq_iff_eq.mpr hkey]
  · rw [if_neg hkey, beq_eq_false_iff_ne.mpr hkey]

/-- The value of one entry shows only in what is read of it. -/
theorem bind_lookup_replace (before after : List (String × α)) {value value' : α}
    {read : α → Option β} (other : String) (h : key = other → read value' = read value) :
    ((before ++ (other, value') :: after).lookup key).bind read =
      ((before ++ (other, value) :: after).lookup key).bind read := by
  rw [lookup_append_cons, lookup_append_cons]
  cases before.lookup key with
  | some found => rfl
  | none =>
    by_cases hkey : key = other
    · simpa [hkey] using h hkey
    · simp [hkey]

end

namespace Dict

variable {α : Type}

theorem contains_iff_mem_keys (d : Dict α) (key : String) :
    d.contains key = true ↔ key ∈ d.keys := lookup_isSome_iff_mem_keys

/-- Pairs with distinct keys are the entries of the dictionary made of them. -/
theorem entries_ofList {pairs : List (String × α)} (h : (pairs.map Prod.fst).Nodup) :
    (ofList pairs).entries = pairs := by
  -- from the front, so that one more pair is one more insertion
  induction pairs using List.reverseRecOn with
  | nil => rfl
  | append_singleton seen pair ih =>
    obtain ⟨key, value⟩ := pair
    rw [List.map_append, List.nodup_append] at h
    have hnew : key ∉ (ofList seen).entries.map Prod.fst := by
      rw [ih h.1]
      exact fun hmem => h.2.2 key hmem key (List.mem_singleton_self _) rfl
    rw [ofList, List.foldl_concat]
    show putEntry key value (ofList seen).entries = _
    rw [putEntry_of_not_mem value hnew, ih h.1]

/-! ### Keys in order -/

theorem sortedLT_sortedKeys (d : Dict α) : d.sortedKeys.SortedLT := by
  have hnodup : d.sortedKeys.Nodup := (List.mergeSort_perm _ _).symm.nodup d.distinct
  exact List.sortedLE_mergeSort.sortedLT_of_nodup hnodup

theorem mem_sortedKeys (d : Dict α) (key : String) :
    key ∈ d.sortedKeys ↔ d.contains key = true := by
  rw [contains_iff_mem_keys]
  exact (List.mergeSort_perm _ _).mem_iff

theorem length_sortedKeys (d : Dict α) : d.sortedKeys.length = d.size := by
  rw [sortedKeys, List.length_mergeSort, keys, List.length_map, size]

end Dict

end Mosaic
