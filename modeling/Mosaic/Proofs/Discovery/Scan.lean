import Mathlib.Data.List.Nodup
import Mathlib.Data.String.Basic
import Mosaic.Discovery.Scan
import Mosaic.Proofs.Files.Exchange

/-!
# What a search finds when a file is exchanged

A search finds the same sources in the same order whatever a file holds, but for the file itself,
which it finds at certain points with the content that it has, or does not find if it is not there.

* `Slot`, `Slot.fill`: a source that is found, or a point at which the file is found.
* `Filled`, `FilledAt`: what depends on the content of the file in that way, and what does with the
  file found under some paths only.
* `filledAt_groups`, `filledAt_sourcesOf`, `filledAt_location`: the sources below a directory.
* `filledAt_scan`, `filled_scan`: a search.
-/

namespace Mosaic.Discovery

open Files

/-! ## The order of names -/

section

variable {α β : Type}

/-- In order, the names increase. -/
theorem pairwise_mergeSort_names (groups : List (String × α)) :
    (groups.mergeSort fun a b => a.1 ≤ b.1).Pairwise fun a b => a.1 ≤ b.1 := by
  have htrans : ∀ a b c : String × α, decide (a.1 ≤ b.1) = true → decide (b.1 ≤ c.1) = true →
      decide (a.1 ≤ c.1) = true := by
    intro a b c hab hbc
    exact decide_eq_true (le_trans (of_decide_eq_true hab) (of_decide_eq_true hbc))
  have htotal : ∀ a b : String × α, (decide (a.1 ≤ b.1) || decide (b.1 ≤ a.1)) = true := by
    intro a b
    rw [Bool.or_eq_true, decide_eq_true_iff, decide_eq_true_iff]
    exact le_total a.1 b.1
  exact (List.pairwise_mergeSort htrans htotal groups).imp of_decide_eq_true

/-- Groups with distinct names can be in one order only. -/
theorem eq_of_pairwise_names {groups groups' : List (String × α)}
    (hdistinct : (groups.map Prod.fst).Nodup) (hperm : groups.Perm groups')
    (hsorted : groups.Pairwise fun a b => a.1 ≤ b.1)
    (hsorted' : groups'.Pairwise fun a b => a.1 ≤ b.1) : groups = groups' := by
  refine hperm.eq_of_pairwise (fun a b ha hb hab hba => ?_) hsorted hsorted'
  -- there is one group of each name
  exact List.inj_on_of_nodup_map hdistinct ha (hperm.mem_iff.mpr hb) (le_antisymm hab hba)

/-- What is done to each member of the groups can be done before they are put in order. -/
theorem filterMap_inNameOrder (f : α → Option β) (groups : List (String × List α)) :
    (inNameOrder groups).filterMap f =
      inNameOrder (groups.map fun group => (group.1, group.2.filterMap f)) := by
  have hsort : (groups.mergeSort fun a b => a.1 ≤ b.1).map
        (fun group => (group.1, group.2.filterMap f)) =
      (groups.map fun group => (group.1, group.2.filterMap f)).mergeSort fun a b => a.1 ≤ b.1 :=
    List.map_mergeSort fun _ _ _ _ => rfl
  rw [inNameOrder, inNameOrder, List.filterMap_flatMap, ← hsort, List.flatMap_map]

/-- Groups with distinct names can be left out before the others are put in order. -/
theorem mergeSort_filter {groups : List (String × α)} (hdistinct : (groups.map Prod.fst).Nodup)
    (keep : String × α → Bool) :
    (groups.filter keep).mergeSort (fun a b => a.1 ≤ b.1) =
      (groups.mergeSort fun a b => a.1 ≤ b.1).filter keep := by
  have hperm : ((groups.filter keep).mergeSort fun a b => a.1 ≤ b.1).Perm
      ((groups.mergeSort fun a b => a.1 ≤ b.1).filter keep) :=
    (List.mergeSort_perm _ _).trans ((List.mergeSort_perm _ _).symm.filter _)
  refine eq_of_pairwise_names ?_ hperm (pairwise_mergeSort_names _)
    ((pairwise_mergeSort_names _).filter _)
  have hkept : ((groups.filter keep).map Prod.fst).Nodup :=
    hdistinct.sublist (List.filter_sublist.map Prod.fst)
  exact ((List.mergeSort_perm _ _).map Prod.fst).symm.nodup hkept

theorem mem_inNameOrder {groups : List (String × List α)} {x : α} :
    x ∈ inNameOrder groups ↔ ∃ group ∈ groups, x ∈ group.2 := by
  rw [inNameOrder, List.mem_flatMap]
  simp only [(List.mergeSort_perm _ _).mem_iff]

theorem flatMap_filter_of_nil {f : α → List β} {keep : α → Bool} {xs : List α}
    (h : ∀ x ∈ xs, keep x = false → f x = []) : (xs.filter keep).flatMap f = xs.flatMap f := by
  induction xs with
  | nil => rfl
  | cons x rest ih =>
    rw [List.forall_mem_cons] at h
    rw [List.filter_cons, List.flatMap_cons]
    cases hkeep : keep x with
    | true => rw [if_pos rfl, List.flatMap_cons, ih h.2]
    | false => rw [if_neg Bool.false_ne_true, h.1 hkeep, List.nil_append, ih h.2]

/-- Groups that are empty can be left out. -/
theorem inNameOrder_filter {groups : List (String × List α)}
    (hdistinct : (groups.map Prod.fst).Nodup) {keep : String × List α → Bool}
    (hempty : ∀ group ∈ groups, keep group = false → group.2 = []) :
    inNameOrder (groups.filter keep) = inNameOrder groups := by
  rw [inNameOrder, mergeSort_filter hdistinct, inNameOrder]
  refine flatMap_filter_of_nil fun group hgroup => hempty group ?_
  exact (List.mergeSort_perm _ _).mem_iff.mp hgroup

end

/-! ## Sources and the file that is exchanged -/

/-- A source that is found, or, without a content, a point at which the file is found. -/
structure Slot where
  path : Path
  content? : Option ByteArray

namespace Slot

/-- What is found at a point, if the file has the given content or is not there. -/
def fill (content? : Option ByteArray) (slot : Slot) : Option SourceFile :=
  (slot.content?.or content?).map fun content => ⟨slot.path, content⟩

def ofSource (source : SourceFile) : Slot := ⟨source.path, some source.content⟩

theorem filterMap_fill_ofSource (content? : Option ByteArray) (sources : List SourceFile) :
    (sources.map ofSource).filterMap (fill content?) = sources := by
  rw [List.filterMap_map]
  exact List.filterMap_some

end Slot

/-- Whether the sources that are found are always the same, but for the file itself, which is found
at certain points. -/
def Filled (found : Option ByteArray → List SourceFile) : Prop :=
  ∃ slots : List Slot, ∀ content?, found content? = slots.filterMap (Slot.fill content?)

/-- The same, with the file found under some paths only. -/
def FilledAt (own : Path → Prop) (found : Option ByteArray → List SourceFile) : Prop :=
  ∃ slots : List Slot, (∀ slot ∈ slots, slot.content? = none → own slot.path) ∧
    ∀ content?, found content? = slots.filterMap (Slot.fill content?)

namespace FilledAt

variable {own : Path → Prop} {found found' : Option ByteArray → List SourceFile}

theorem const (own : Path → Prop) (sources : List SourceFile) : FilledAt own fun _ => sources := by
  refine ⟨sources.map Slot.ofSource, fun slot hslot hnone => ?_, fun content? => ?_⟩
  · -- a source that is found is not the file
    obtain ⟨source, -, rfl⟩ := List.mem_map.mp hslot
    cases hnone
  · exact (Slot.filterMap_fill_ofSource content? sources).symm

theorem of_eq (h : FilledAt own found) (heq : ∀ content?, found' content? = found content?) :
    FilledAt own found' := by
  obtain ⟨slots, hown, hslots⟩ := h
  exact ⟨slots, hown, fun content? => (heq content?).trans (hslots content?)⟩

theorem filled (h : FilledAt own found) : Filled found := by
  obtain ⟨slots, -, hslots⟩ := h
  exact ⟨slots, hslots⟩

/-- A file that is found under no path makes no difference. -/
theorem eq_of_forall_not (h : FilledAt own found) (hnone : ∀ path, ¬ own path)
    (content? content?' : Option ByteArray) : found content? = found content?' := by
  obtain ⟨slots, hown, hslots⟩ := h
  rw [hslots, hslots]
  refine List.filterMap_congr fun slot hslot => ?_
  have hcontent : slot.content? ≠ none := fun h => hnone slot.path (hown slot hslot h)
  obtain ⟨content, hcontent⟩ := Option.ne_none_iff_exists'.mp hcontent
  rw [Slot.fill, Slot.fill, hcontent, Option.some_or, Option.some_or]

end FilledAt

section

variable {own : Path → Prop} {rules : ScanRules} {name : String}

/-- The file itself. -/
theorem filledAt_file {path : Path} (hown : rules.isSource path = true → own path) (depth : Nat) :
    FilledAt own fun content? =>
      ((content?.map FileTree.file).map (sourcesOf rules path depth)).getD [] := by
  -- the file is a slot of its own if it is a source, and else leaves no trace
  cases hsource : rules.isSource path with
  | true =>
    refine ⟨[⟨path, none⟩], fun slot hslot _ => ?_, fun content? => ?_⟩
    · rw [List.mem_singleton] at hslot
      rw [hslot]
      exact hown hsource
    · cases content? with
      | none => rfl
      | some content =>
        show sourcesOf rules path depth (.file content) = _
        rw [sourcesOf, if_pos hsource]
        rfl
  | false =>
    refine (FilledAt.const own []).of_eq fun content? => ?_
    cases content? with
    | none => rfl
    | some content =>
      show sourcesOf rules path depth (.file content) = _
      rw [sourcesOf, hsource, if_neg Bool.false_ne_true]

theorem sourceGroups_eq (rules : ScanRules) (place : Path) (depth : Nat) (entries : Entries) :
    sourceGroups rules place depth entries =
      (entries.filter fun entry => !rules.skips entry.1).map fun entry =>
        (entry.1, sourcesOf rules (place.join entry.1) depth entry.2) := by
  induction entries with
  | nil => rw [sourceGroups]; rfl
  | cons entry rest ih =>
    obtain ⟨name, node⟩ := entry
    rw [sourceGroups, ih, List.filter_cons]
    cases rules.skips name <;> rfl

/-- A source in a directory that is searched is found, unless its name is left out. -/
theorem mem_sourcesOf_directory {path : Path} {depth : Nat} {entries : Entries} {content : ByteArray}
    (hentry : (name, .file content) ∈ entries) (hkept : rules.skips name = false)
    (hsource : rules.isSource (path.join name) = true) :
    ⟨path.join name, content⟩ ∈ sourcesOf rules path (depth + 1) (.directory entries) := by
  -- it is in the group of its own name
  rw [sourcesOf, mem_inNameOrder, sourceGroups_eq]
  refine ⟨_, List.mem_map.mpr ⟨_, List.mem_filter.mpr ⟨hentry, ?_⟩, rfl⟩, ?_⟩
  · rw [hkept]
    rfl
  · dsimp only
    rw [sourcesOf, if_pos hsource]
    exact List.mem_singleton_self _

/-- The groups of a directory, with other sources under one name. -/
def groupsWith (rules : ScanRules) (place : Path) (depth : Nat) (entries : Entries) (name : String)
    (sources : List SourceFile) : List (String × List SourceFile) :=
  (entries.filter fun entry => !rules.skips entry.1).map fun entry =>
    (entry.1, if entry.1 = name then sources else sourcesOf rules (place.join entry.1) depth entry.2)

/-- The same groups, with the points at which the file is found. -/
def slotGroups (rules : ScanRules) (place : Path) (depth : Nat) (entries : Entries) (name : String)
    (slots : List Slot) : List (String × List Slot) :=
  (entries.filter fun entry => !rules.skips entry.1).map fun entry =>
    (entry.1, if entry.1 = name then slots
      else (sourcesOf rules (place.join entry.1) depth entry.2).map .ofSource)

variable {place : Path} {depth : Nat} {entries : Entries}

theorem fill_slotGroups (content? : Option ByteArray) (slots : List Slot) :
    ((slotGroups rules place depth entries name slots).map fun group =>
        (group.1, group.2.filterMap (Slot.fill content?))) =
      groupsWith rules place depth entries name (slots.filterMap (Slot.fill content?)) := by
  rw [slotGroups, groupsWith, List.map_map]
  refine List.map_congr_left fun entry _ => Prod.ext rfl ?_
  show List.filterMap _ (if entry.1 = name then _ else _) = if entry.1 = name then _ else _
  split
  · rfl
  · exact Slot.filterMap_fill_ofSource content? _

/-- An entry that is set contributes its own sources. -/
theorem sourceGroups_putEntry (hdistinct : (entries.map Prod.fst).Nodup)
    (hname : name ∈ entries.map Prod.fst) (node : FileTree) :
    sourceGroups rules place depth (putEntry name node entries) =
      groupsWith rules place depth entries name (sourcesOf rules (place.join name) depth node) := by
  have hkeep : ∀ entry : String × FileTree,
      (if entry.1 = name then (name, node) else entry).1 = entry.1 := by
    intro entry
    split
    · next h => exact h.symm
    · rfl
  rw [putEntry_eq_map node hname hdistinct, sourceGroups_eq, List.filter_map, List.map_map,
    groupsWith]
  simp only [Function.comp_def, hkeep]
  refine List.map_congr_left fun entry _ => Prod.ext rfl ?_
  by_cases hentry : entry.1 = name
  · simp only [hentry, if_true]
  · simp only [hentry, if_false]

/-- An entry that is removed contributes nothing. -/
theorem inNameOrder_sourceGroups_removeEntry (hdistinct : (entries.map Prod.fst).Nodup) :
    inNameOrder (sourceGroups rules place depth (removeEntry name entries)) =
      inNameOrder (groupsWith rules place depth entries name []) := by
  have hkeys : ((groupsWith rules place depth entries name []).map Prod.fst).Nodup := by
    rw [groupsWith, List.map_map]
    exact hdistinct.sublist (List.filter_sublist.map Prod.fst)
  have hgroups : sourceGroups rules place depth (removeEntry name entries) =
      (groupsWith rules place depth entries name []).filter fun group => group.1 ≠ name := by
    rw [sourceGroups_eq, removeEntry, groupsWith, List.filter_map, List.filter_filter,
      List.filter_filter]
    have hcomm : entries.filter (fun entry => !rules.skips entry.1 && entry.1 ≠ name) =
        entries.filter fun entry => entry.1 ≠ name && !rules.skips entry.1 :=
      List.filter_congr fun entry _ => Bool.and_comm _ _
    rw [hcomm]
    refine List.map_congr_left fun entry hentry => Prod.ext rfl ?_
    rw [List.mem_filter, Bool.and_eq_true, decide_eq_true_iff] at hentry
    exact (if_neg hentry.2.1).symm
  -- a group without sources might as well be left out
  rw [hgroups]
  refine inNameOrder_filter hkeys fun group hgroup hkeep => ?_
  obtain ⟨entry, -, rfl⟩ := List.mem_map.mp hgroup
  exact if_pos (by simpa using hkeep)

/-- A point at which a group of the file is found. -/
theorem mem_inNameOrder_slotGroups {slots : List Slot} {slot : Slot}
    (h : slot ∈ inNameOrder (slotGroups rules place depth entries name slots))
    (hnone : slot.content? = none) : slot ∈ slots := by
  obtain ⟨group, hgroup, hslot⟩ := mem_inNameOrder.mp h
  obtain ⟨entry, -, rfl⟩ := List.mem_map.mp hgroup
  dsimp only at hslot
  split at hslot
  · exact hslot
  · -- the other entries have sources of their own
    obtain ⟨source, -, rfl⟩ := List.mem_map.mp hslot
    cases hnone

/-- **The sources of a directory** in which one entry depends on the content of the file. -/
theorem filledAt_groups (hdistinct : (entries.map Prod.fst).Nodup)
    (hname : name ∈ entries.map Prod.fst) {node? : Option ByteArray → Option FileTree}
    (h : FilledAt own fun content? =>
      ((node? content?).map (sourcesOf rules (place.join name) depth)).getD []) :
    FilledAt own fun content? =>
      inNameOrder (sourceGroups rules place depth (setEntry name (node? content?) entries)) := by
  obtain ⟨slots, hown, hslots⟩ := h
  refine ⟨inNameOrder (slotGroups rules place depth entries name slots),
    fun slot hslot hnone => hown slot (mem_inNameOrder_slotGroups hslot hnone) hnone,
    fun content? => ?_⟩
  -- what stands under the name fills the slots; without it there is no group
  have hfound : ((node? content?).map (sourcesOf rules (place.join name) depth)).getD [] =
      slots.filterMap (Slot.fill content?) := hslots content?
  show inNameOrder (sourceGroups rules place depth (setEntry name (node? content?) entries)) = _
  rw [filterMap_inNameOrder, fill_slotGroups, ← hfound]
  cases node? content? with
  | none => exact inNameOrder_sourceGroups_removeEntry hdistinct
  | some node =>
    show inNameOrder (sourceGroups rules place depth (putEntry name node entries)) = _
    rw [sourceGroups_putEntry hdistinct hname]
    rfl

/-! ## Below a directory -/

/-- **The sources at or below a node** with the file somewhere below it. -/
theorem filledAt_sourcesOf (hown : ∀ place : Path, rules.isSource (place.join name) = true →
      own (place.join name))
    {node : FileTree} (hnode : node.WellFormed) {way : Location} {content : ByteArray}
    (hway : node.at? way = some (.directory entries))
    (hfile : entries.lookup name = some (.file content)) (path : Path) (depth : Nat) :
    FilledAt own fun content? =>
      sourcesOf rules path depth (node.updateEntries (setEntry name (content?.map .file)) way) := by
  -- the induction is on the way to the directory of the file
  induction way generalizing node path depth with
  | nil =>
    rw [FileTree.at?_nil, Option.some_inj] at hway
    subst hway
    cases depth with
    | zero =>
      refine (FilledAt.const own []).of_eq fun content? => ?_
      rw [FileTree.updateEntries_nil, sourcesOf]
    | succ depth =>
      have hname : name ∈ entries.map Prod.fst := lookup_isSome_iff_mem_keys.mp (hfile ▸ rfl)
      rw [FileTree.WellFormed] at hnode
      refine (filledAt_groups hnode.1 hname
        (filledAt_file (hown path) depth)).of_eq fun content? => ?_
      rw [FileTree.updateEntries_nil, sourcesOf]
  | cons first rest ih =>
    rw [FileTree.at?_cons] at hway
    obtain ⟨child, hchild, hrest⟩ := Option.bind_eq_some_iff.mp hway
    cases node with
    | file content | link target => cases hchild
    | directory others =>
      rw [FileTree.child?_directory] at hchild
      rw [FileTree.WellFormed] at hnode
      cases depth with
      | zero =>
        refine (FilledAt.const own []).of_eq fun content? => ?_
        rw [FileTree.updateEntries, hchild]
        dsimp only
        rw [sourcesOf]
      | succ depth =>
        -- the change is below one of the entries, and the others stay as they are
        have hfirst : first ∈ others.map Prod.fst := lookup_isSome_iff_mem_keys.mp (hchild ▸ rfl)
        have hinside := ih (hnode.2.of_lookup hchild) hrest (path.join first) depth
        have hgroups : FilledAt own fun content? => inNameOrder (sourceGroups rules path depth
            (setEntry first (some (child.updateEntries (setEntry name (content?.map .file)) rest))
              others)) := filledAt_groups hnode.1 hfirst hinside
        refine hgroups.of_eq fun content? => ?_
        rw [FileTree.updateEntries, hchild]
        dsimp only
        rw [sourcesOf]
        rfl

end

/-! ## A search -/

section

variable {own : Path → Prop} {rules : ScanRules} {system : System} {directory : Location}
  {name : String} {content : ByteArray}

/-- What a search finds at the place where it begins: nothing, if a link does not lead to a
directory. -/
theorem value_scan (system : System) (path : Path) (depth : Nat) (rules : ScanRules) :
    (scan system path depth rules).value =
      match (system.lookup path false).toOption with
      | some (.link _) =>
        match (system.lookup path true).toOption with
        | some (.directory entries) => sourcesOf rules path (depth + 1) (.directory entries)
        | _ => []
      | some node => sourcesOf rules path (depth + 1) node
      | none => [] := by
  rw [scan]
  cases system.lookup path false with
  | error fault => rfl
  | ok node =>
    cases node with
    | file content | directory entries => rfl
    | link target =>
      dsimp only [Except.toOption]
      cases system.lookup path true with
      | error fault => rfl
      | ok node => cases node <;> rfl

variable (hwf : system.tree.WellFormed)
  (hfile : system.tree.at? (directory ++ [name]) = some (.file content))
  (hown : ∀ place : Path, rules.isSource (place.join name) = true → own (place.join name))
include hwf hfile hown

/-- **The sources at or below a location.** -/
theorem filledAt_location {location : Location} {path : Path}
    (hpath : location = directory ++ [name] → rules.isSource path = true → own path) (depth : Nat) :
    FilledAt own fun content? =>
      (((system.exchanged directory name content?).tree.at? location).map
        (sourcesOf rules path depth)).getD [] := by
  by_cases hlocation : location = directory ++ [name]
  · subst hlocation
    refine (filledAt_file (hpath rfl) depth).of_eq fun content? => ?_
    rw [System.at?_exchanged hfile]
  · -- besides the file itself only the directories above it can change
    by_cases hdirectory : ∃ entries, system.tree.at? location = some (.directory entries)
    · obtain ⟨entries, hentries⟩ := hdirectory
      by_cases habove : location <+: directory
      · -- the file is somewhere below
        obtain ⟨way, rfl⟩ := habove
        obtain ⟨inside, hinside, hlookup⟩ := FileTree.entries_of_at? hfile
        rw [FileTree.at?_append, hentries, Option.bind_some] at hinside
        refine (filledAt_sourcesOf hown (hwf.of_at? hentries) hinside hlookup path depth).of_eq
          fun content? => ?_
        rw [System.at?_exchanged_directory hfile hentries, if_pos (List.prefix_append ..),
          List.drop_left]
        rfl
      · -- the directory is not above the file, and has nothing else in it afterwards
        refine (FilledAt.const own (sourcesOf rules path depth (.directory entries))).of_eq
          fun content? => ?_
        rw [System.at?_exchanged_directory hfile hentries, if_neg habove]
        rfl
    · -- what is neither the file nor a directory stays as it is
      refine (FilledAt.const own (((system.tree.at? location).map
        (sourcesOf rules path depth)).getD [])).of_eq fun content? => ?_
      rw [System.at?_exchanged_of_ne hfile hlocation (not_exists.mp hdirectory)]

/-- The sources of a directory to which a link leads. -/
theorem filledAt_behind_link (path : Path) (depth : Nat) :
    FilledAt own fun content? =>
      match ((system.exchanged directory name content?).lookup path true).toOption with
      | some (.directory entries) => sourcesOf rules path depth (.directory entries)
      | _ => [] := by
  simp only [System.toOption_lookup_exchanged hfile]
  cases system.resolve path true with
  | error fault => exact .const own []
  | ok goal =>
    dsimp only
    -- the link leads to a directory in both systems, or in none
    by_cases hdirectory : system.tree.see? goal = some .directory
    · have hgoal : goal ≠ directory ++ [name] := by
        rintro rfl
        rw [FileTree.see?, hfile] at hdirectory
        cases hdirectory
      have hpath : goal = directory ++ [name] → rules.isSource path = true → own path :=
        fun heq => absurd heq hgoal
      refine (filledAt_location hwf hfile hown hpath depth).of_eq fun content? => ?_
      have hthere : (system.exchanged directory name content?).tree.see? goal = some .directory :=
        (System.see?_exchanged_iff hfile (by simp)).mpr hdirectory
      obtain ⟨entries, hentries⟩ := FileTree.see?_eq_directory_iff.mp hthere
      rw [hentries]
      rfl
    · refine (FilledAt.const own []).of_eq fun content? => ?_
      split
      · next entries hentries =>
        have hsight := FileTree.see?_eq_directory_iff.mpr ⟨entries, hentries⟩
        exact absurd ((System.see?_exchanged_iff hfile (by simp)).mp hsight) hdirectory
      · rfl

/-- **A search** finds the same sources, but for the file. -/
theorem filledAt_scan {path : Path}
    (hpath : system.resolve path false = .ok (directory ++ [name]) →
      rules.isSource path = true → own path) (depth : Nat) :
    FilledAt own fun content? =>
      (scan (system.exchanged directory name content?) path depth rules).value := by
  simp only [value_scan, System.toOption_lookup_exchanged hfile path false]
  cases hresolve : system.resolve path false with
  | error fault => exact .const own []
  | ok location =>
    dsimp only
    have hlocation : location = directory ++ [name] → rules.isSource path = true → own path :=
      fun heq => hpath (heq ▸ hresolve)
    -- a link in the last place is gone through to its target, all else is scanned where it is
    by_cases hlink : ∃ target, system.tree.see? location = some (.link target)
    · obtain ⟨target, htarget⟩ := hlink
      refine (filledAt_behind_link hwf hfile hown path (depth + 1)).of_eq fun content? => ?_
      have hthere : (system.exchanged directory name content?).tree.see? location =
          some (.link target) := (System.see?_exchanged_iff hfile (by simp)).mpr htarget
      have hnode : (system.exchanged directory name content?).tree.at? location =
          some (.link target) := (FileTree.see?_eq_sight_iff (by nofun)).mp hthere
      rw [hnode]
    · refine (filledAt_location hwf hfile hown hlocation (depth + 1)).of_eq fun content? => ?_
      split
      · next target hnode =>
        have hsight := (FileTree.see?_eq_sight_iff (by nofun)).mpr hnode
        exact absurd ⟨target, (System.see?_exchanged_iff hfile (by simp)).mp hsight⟩ hlink
      · next node _ hnode =>
        rw [hnode]
        rfl
      · next hnode =>
        rw [hnode]
        rfl

omit hown in
/-- The file may be found under any path. -/
theorem filled_scan (rules : ScanRules) (path : Path) (depth : Nat) :
    Filled fun content? =>
      (scan (system.exchanged directory name content?) path depth rules).value := by
  have hscan : FilledAt (fun _ => True) fun content? =>
      (scan (system.exchanged directory name content?) path depth rules).value :=
    filledAt_scan hwf hfile (fun _ _ => trivial) (fun _ _ => trivial) depth
  exact hscan.filled

end

end Mosaic.Discovery
