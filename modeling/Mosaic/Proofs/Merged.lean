import Mosaic.Proofs.Dict

/-!
# Entries one after the other

Entries that are put one after the other leave one entry for each key. It stands where the key
came up first, and its value is the one that came last.

* `putEntries`: putting one entry after the other.
* `merged`: what is left, said without an order of steps.
* `putEntries_nil`: the two are the same.
* `putEntries_putEntry`: what the value of one entry changes, and that it changes nothing if the
  key comes up again.
* `putEntries_assoc`: entries may be put among themselves first.
* `lookup_putEntries`, `Dict.get?_merge`: what is found afterwards.
* `Dict.merge_assoc`, `Dict.empty_merge`, `Dict.merge_empty`: merging dictionaries is associative,
  and the empty one changes nothing.
-/

namespace Mosaic

variable {α : Type} {key : String}

/-- The entries with more of them put in one after the other. -/
def putEntries (entries more : List (String × α)) : List (String × α) :=
  more.foldl (fun entries entry => putEntry entry.1 entry.2 entries) entries

theorem putEntries_cons (entries : List (String × α)) (entry : String × α)
    (more : List (String × α)) :
    putEntries entries (entry :: more) = putEntries (putEntry entry.1 entry.2 entries) more := rfl

/-- Entries can be put in in two goes. -/
theorem putEntries_append (entries more others : List (String × α)) :
    putEntries entries (more ++ others) = putEntries (putEntries entries more) others :=
  List.foldl_append

/-- However many entries are put in, the keys stay distinct. -/
theorem nodup_keys_putEntries {entries : List (String × α)} (more : List (String × α))
    (h : (entries.map Prod.fst).Nodup) : ((putEntries entries more).map Prod.fst).Nodup := by
  induction more generalizing entries with
  | nil => exact h
  | cons entry more ih => exact ih (nodup_keys_putEntry h)

/-- Keys that are there stay there. -/
theorem mem_keys_putEntries {entries : List (String × α)} (more : List (String × α))
    (h : key ∈ entries.map Prod.fst) : key ∈ (putEntries entries more).map Prod.fst := by
  induction more generalizing entries with
  | nil => exact h
  | cons entry more ih =>
    refine ih ?_
    rw [keys_putEntry]
    split
    · exact h
    · exact List.mem_append_left _ h

/-! ## What is left -/

/-- Each key once, where it came up first, with the value that came last. -/
def merged (entries : List (String × α)) : List (String × α) :=
  (entries.map Prod.fst).eraseDups.filterMap fun key =>
    entries.reverse.find? fun entry => entry.1 = key

/-- Each key of some entries has a last entry. -/
theorem exists_find?_reverse {entries : List (String × α)} (h : key ∈ entries.map Prod.fst) :
    ∃ value, entries.reverse.find? (fun entry => entry.1 = key) = some (key, value) := by
  obtain ⟨entry, hentry, hkey⟩ := List.mem_map.mp h
  have hsome : (entries.reverse.find? fun entry => entry.1 = key).isSome = true := by
    rw [List.find?_isSome]
    exact ⟨entry, List.mem_reverse.mpr hentry, decide_eq_true hkey⟩
  obtain ⟨⟨found, value⟩, hfound⟩ := Option.isSome_iff_exists.mp hsome
  have heq : found = key := by simpa using List.find?_some hfound
  exact ⟨value, heq ▸ hfound⟩

/-- Each key stands where it came up first. -/
theorem map_fst_merged (entries : List (String × α)) :
    (merged entries).map Prod.fst = (entries.map Prod.fst).eraseDups := by
  have hkey : ∀ key ∈ (entries.map Prod.fst).eraseDups,
      (entries.reverse.find? fun entry => entry.1 = key).map Prod.fst = some key := by
    intro key hkey
    obtain ⟨value, hfound⟩ := exists_find?_reverse (List.mem_eraseDups.mp hkey)
    rw [hfound, Option.map_some]
  rw [merged, List.map_filterMap, List.filterMap_congr hkey]
  exact List.filterMap_some

/-- Merging makes no entries of its own. -/
theorem mem_of_mem_merged {entries : List (String × α)} {entry : String × α}
    (h : entry ∈ merged entries) : entry ∈ entries := by
  obtain ⟨key, -, hfound⟩ := List.mem_filterMap.mp h
  exact List.mem_reverse.mp (List.mem_of_find?_eq_some hfound)

/-- An entry at the end is the last one with its key, and no other key has another last entry. -/
theorem find?_reverse_concat (entries : List (String × α)) (key : String) (value : α)
    (other : String) :
    (entries ++ [(key, value)]).reverse.find? (fun entry => entry.1 = other) =
      if key = other then some (key, value)
      else entries.reverse.find? fun entry => entry.1 = other := by
  rw [List.reverse_append, List.reverse_singleton, List.singleton_append, List.find?_cons]
  by_cases hother : key = other <;> simp [hother]

/-- One more entry at the end replaces the value of its key. -/
theorem merged_concat (entries : List (String × α)) (key : String) (value : α) :
    merged (entries ++ [(key, value)]) = putEntry key value (merged entries) := by
  have hnodup : ((merged entries).map Prod.fst).Nodup := by
    rw [map_fst_merged]
    exact nodup_eraseDups _
  by_cases hmem : key ∈ entries.map Prod.fst
  · -- a known key keeps its place, and only the value found for it is another
    have hkeys : ((entries ++ [(key, value)]).map Prod.fst).eraseDups =
        (entries.map Prod.fst).eraseDups := by
      rw [List.map_append, List.map_singleton, eraseDups_concat, if_pos hmem, List.append_nil]
    have hmerged : key ∈ (merged entries).map Prod.fst := by
      rw [map_fst_merged]
      exact List.mem_eraseDups.mpr hmem
    rw [putEntry_eq_map value hmerged hnodup, merged, merged, hkeys, List.map_filterMap]
    refine List.filterMap_congr fun other hother => ?_
    obtain ⟨old, hold⟩ := exists_find?_reverse (List.mem_eraseDups.mp hother)
    rw [find?_reverse_concat, hold, Option.map_some]
    by_cases hkey : key = other
    · rw [if_pos hkey, if_pos hkey.symm]
    · rw [if_neg hkey, if_neg (Ne.symm hkey)]
  · -- a new key comes last, where its only entry is found
    have hkeys : ((entries ++ [(key, value)]).map Prod.fst).eraseDups =
        (entries.map Prod.fst).eraseDups ++ [key] := by
      rw [List.map_append, List.map_singleton, eraseDups_concat, if_neg hmem]
    have hmerged : key ∉ (merged entries).map Prod.fst := by
      rw [map_fst_merged]
      exact fun h => hmem (List.mem_eraseDups.mp h)
    have hnew : [key].filterMap (fun other =>
        (entries ++ [(key, value)]).reverse.find? fun entry => entry.1 = other) =
        [(key, value)] := by
      simp
    rw [putEntry_of_not_mem value hmerged, merged, merged, hkeys, List.filterMap_append, hnew]
    congr 1
    refine List.filterMap_congr fun other hother => ?_
    have hne : key ≠ other := fun heq => hmem (heq ▸ List.mem_eraseDups.mp hother)
    rw [find?_reverse_concat, if_neg hne]

/-- **Entries put one after the other** are merged. -/
theorem putEntries_nil (entries : List (String × α)) : putEntries [] entries = merged entries := by
  -- from the front, so that one more entry is put last
  induction entries using List.reverseRecOn with
  | nil => rfl
  | append_singleton entries entry ih =>
    rw [merged_concat, ← ih, putEntries_append]
    rfl

/-- Which entries are left does not depend on their values. -/
theorem merged_map {β : Type} (f : α → β) (entries : List (String × α)) :
    merged (entries.map fun entry => (entry.1, f entry.2)) =
      (merged entries).map fun entry => (entry.1, f entry.2) := by
  have hkeys : (entries.map fun entry => (entry.1, f entry.2)).map Prod.fst =
      entries.map Prod.fst := by
    rw [List.map_map]
    rfl
  rw [merged, merged, hkeys, List.map_filterMap]
  refine List.filterMap_congr fun key _ => ?_
  rw [← List.map_reverse, List.find?_map]
  rfl

/-! ## The value of one entry -/

/-- Two entries may be put in either order if one of them only replaces a value. -/
theorem putEntry_comm {other : String} (hne : other ≠ key) (value value' : α)
    {entries : List (String × α)} (h : key ∈ entries.map Prod.fst) :
    putEntry other value' (putEntry key value entries) =
      putEntry key value (putEntry other value' entries) := by
  induction entries with
  | nil => cases h
  | cons entry rest ih =>
    obtain ⟨k, v⟩ := entry
    by_cases hkey : k = key
    · subst hkey
      simp [putEntry, Ne.symm hne]
    · have hrest : key ∈ rest.map Prod.fst := (List.mem_cons.mp h).resolve_left (Ne.symm hkey)
      by_cases hother : k = other
      · subst hother
        simp [putEntry, hkey]
      · simp [putEntry, hkey, hother, ih hrest]

/-- **The value of one entry** stays at its key and touches no other, unless the key comes up
again and has its value from there. -/
theorem putEntries_putEntry (value : α) {entries : List (String × α)} (more : List (String × α))
    (h : key ∈ entries.map Prod.fst) :
    putEntries (putEntry key value entries) more =
      if key ∈ more.map Prod.fst then putEntries entries more
      else putEntry key value (putEntries entries more) := by
  induction more generalizing entries with
  | nil => rfl
  | cons entry more ih =>
    obtain ⟨other, value'⟩ := entry
    rw [putEntries_cons, putEntries_cons, List.map_cons]
    by_cases hkey : other = key
    · rw [hkey, putEntry_putEntry, if_pos (List.mem_cons_self ..)]
    · have hstays : key ∈ (putEntry other value' entries).map Prod.fst :=
        mem_keys_putEntries [(other, value')] h
      have hmem : key ∈ other :: more.map Prod.fst ↔ key ∈ more.map Prod.fst := by
        rw [List.mem_cons, or_iff_right (Ne.symm hkey)]
      rw [putEntry_comm hkey value value' h, ih hstays]
      exact if_congr hmem.symm rfl rfl

/-! ## Putting entries in groups -/

/-- One more entry may be put among the entries that are put, or after them. -/
theorem putEntries_putEntry_right (value : α) (entries : List (String × α))
    {more : List (String × α)} (hdistinct : (more.map Prod.fst).Nodup) :
    putEntries entries (putEntry key value more) =
      putEntry key value (putEntries entries more) := by
  induction more generalizing entries with
  | nil => rfl
  | cons entry more ih =>
    obtain ⟨k, v⟩ := entry
    rw [List.map_cons, List.nodup_cons] at hdistinct
    by_cases hkey : k = key
    · subst hkey
      have hmem : k ∈ (putEntry k v entries).map Prod.fst := by
        rw [← lookup_isSome_iff_mem_keys, lookup_putEntry_self, Option.isSome_some]
      -- the value is replaced before the others are put, and they do not have the key
      rw [putEntry, if_pos rfl, putEntries_cons, putEntries_cons]
      calc putEntries (putEntry k value entries) more
          = putEntries (putEntry k value (putEntry k v entries)) more := by rw [putEntry_putEntry]
        _ = putEntry k value (putEntries (putEntry k v entries) more) := by
            rw [putEntries_putEntry value more hmem, if_neg hdistinct.1]
    · rw [putEntry, if_neg hkey, putEntries_cons, putEntries_cons, ih _ hdistinct.2]

/-- **Entries may be put among themselves first**, and then among others. -/
theorem putEntries_assoc (entries : List (String × α)) {more : List (String × α)}
    (others : List (String × α)) (hdistinct : (more.map Prod.fst).Nodup) :
    putEntries entries (putEntries more others) = putEntries (putEntries entries more) others := by
  induction others generalizing more with
  | nil => rfl
  | cons entry others ih =>
    rw [putEntries_cons, putEntries_cons, ih (nodup_keys_putEntry hdistinct),
      putEntries_putEntry_right _ _ hdistinct]

/-! ## Lookups -/

/-- Among entries with distinct keys that have been put, each is found by its key; the entries
that were there before are found by all other keys. -/
theorem lookup_putEntries (entries : List (String × α)) {more : List (String × α)}
    (hdistinct : (more.map Prod.fst).Nodup) :
    (putEntries entries more).lookup key = (more.lookup key).or (entries.lookup key) := by
  induction more generalizing entries with
  | nil => rfl
  | cons entry more ih =>
    obtain ⟨k, value⟩ := entry
    rw [List.map_cons, List.nodup_cons] at hdistinct
    rw [putEntries_cons, ih _ hdistinct.2]
    by_cases hkey : key = k
    · subst hkey
      -- the key does not come up again
      rw [lookup_eq_none_iff_not_mem_keys.mpr hdistinct.1, lookup_putEntry_self,
        List.lookup_cons_self]
      rfl
    · rw [lookup_putEntry_of_ne hkey, List.lookup_cons, beq_eq_false_iff_ne.mpr hkey]

namespace Dict

/-- To merge two dictionaries is to put the entries of one into the other. -/
theorem entries_merge (a b : Dict α) : (a.merge b).entries = putEntries a.entries b.entries := by
  rw [merge]
  induction b.entries generalizing a with
  | nil => rfl
  | cons entry rest ih => exact ih (a.insert entry.1 entry.2)

/-- **After merging**, the overriding dictionary is asked first. -/
theorem get?_merge (a b : Dict α) (key : String) :
    (a.merge b).get? key = (b.get? key).or (a.get? key) := by
  rw [get?, entries_merge, lookup_putEntries _ b.distinct]
  rfl

/-- Dictionaries merge alike whichever two of them come first. -/
theorem merge_assoc (a b c : Dict α) : (a.merge b).merge c = a.merge (b.merge c) := by
  apply Dict.ext
  rw [entries_merge, entries_merge, entries_merge, entries_merge]
  exact (putEntries_assoc a.entries c.entries b.distinct).symm

@[simp] theorem merge_empty (d : Dict α) : d.merge ∅ = d := rfl

@[simp] theorem empty_merge (d : Dict α) : (∅ : Dict α).merge d = d := by
  apply Dict.ext
  show (ofList d.entries).entries = d.entries
  exact entries_ofList d.distinct

end Dict

end Mosaic
