import Mosaic.Proofs.Discovery.Order
import Mosaic.Proofs.Files.Linkless

/-!
# What a search finds

A search of a directory finds the files below it with the right extension, down to some depth, to
which no hidden directory and no directory of other packages leads. They come in the order of their
ways: the first names that differ decide, and names are compared by their bytes. That is neither the
order in which the directories list them nor that of the paths as texts: `a/b` comes before `a.b`.

* `Text.bytes_lt`: names that are ordered by their characters are ordered by their bytes.
* `Location.Precedes`: the order of ways.
* `ScanRules.isSource_iff`, `ScanRules.skips_eq_false_iff`: the rules for names.
* `Finding`, `Finding.IsWanted`: a file below a directory, and whether a search is to find it.
* `Lists.flatMap`, `lists_sourcesOf`: the sources below entries in order, and below a node.
* `scan_listing`: a search.
-/

namespace Mosaic

/-! ## The order of bytes -/

namespace Text

/-- The bytes of a text in UTF-8. -/
def bytes (text : String) : List UInt8 := text.toUTF8.data.toList

/-- The bytes of a text are those of its characters, one after the other. -/
theorem bytes_ofList (chars : List Char) :
    bytes (String.ofList chars) = chars.flatMap String.utf8EncodeChar := by
  rw [bytes, String.toUTF8_eq_toByteArray, String.toByteArray_ofList, List.utf8Encode,
    List.data_toByteArray]

theorem ofNat_cons_lt {a b : Nat} {u v : List UInt8} (hb : b < 256) (hle : a ≤ b)
    (hrest : a = b → u < v) : UInt8.ofNat a :: u < UInt8.ofNat b :: v := by
  have ha : a < 256 := Nat.lt_of_le_of_lt hle hb
  rw [List.cons_lt_cons_iff, UInt8.lt_iff_toNat_lt, UInt8.toNat_ofNat_of_lt' hb,
    UInt8.toNat_ofNat_of_lt' ha]
  rcases Nat.lt_or_eq_of_le hle with hlt | heq
  · exact .inl hlt
  · exact .inr ⟨congrArg UInt8.ofNat heq, hrest heq⟩

/-- A greater character has greater bytes, whatever follows them. -/
theorem utf8EncodeChar_append_lt {c d : Char} (h : c < d) (u v : List UInt8) :
    String.utf8EncodeChar c ++ u < String.utf8EncodeChar d ++ v := by
  have hlt : c.val.toNat < d.val.toNat := UInt32.lt_iff_toNat_lt.mp h
  have hd : d.val.toNat < 1114112 := by
    have hvalid := d.valid
    unfold UInt32.isValidChar Nat.isValidChar at hvalid
    omega
  unfold String.utf8EncodeChar
  dsimp only
  -- a character of more bytes starts with a greater one; otherwise the bytes are digits of the two
  -- characters, and the first that differ decide
  split_ifs
  all_goals
    simp only [List.cons_append, List.nil_append]
    repeat first
      | omega
      | refine ofNat_cons_lt (by omega) (by omega) fun _ => ?_

/-- **Texts in the order of their characters** are in the order of their bytes. -/
theorem bytes_lt {text other : String} (h : text < other) : bytes text < bytes other := by
  -- both texts are taken character by character, and differ in the first bytes of one of them
  have hlex : List.Lex (· < ·) text.toList other.toList := String.lt_iff_toList_lt.mp h
  rw [← String.ofList_toList (s := text), ← String.ofList_toList (s := other), bytes_ofList,
    bytes_ofList]
  generalize text.toList = chars at hlex
  generalize other.toList = others at hlex
  induction hlex with
  | @nil d others =>
    rw [List.flatMap_nil, List.flatMap_cons]
    have hne : String.utf8EncodeChar d ≠ [] := by
      unfold String.utf8EncodeChar
      dsimp only
      split_ifs <;> exact List.cons_ne_nil _ _
    obtain ⟨byte, rest, hbytes⟩ := List.exists_cons_of_ne_nil hne
    rw [hbytes, List.cons_append]
    exact List.nil_lt_cons _ _
  | cons _ ih =>
    rw [List.flatMap_cons, List.flatMap_cons]
    exact List.append_left_lt ih
  | rel hlt =>
    rw [List.flatMap_cons, List.flatMap_cons]
    exact utf8EncodeChar_append_lt hlt _ _

end Text

namespace Files

/-- Whether one location comes before another: the first names that differ are in the order of
their bytes, or the one is above the other. -/
def Location.Precedes (location other : Location) : Prop :=
  List.Lex (fun name other => Text.bytes name < Text.bytes other) location other

/-- No location stands on both sides of another. -/
theorem Location.Precedes.asymm {location other : Location} (h : location.Precedes other) :
    ¬ other.Precedes location :=
  List.lex_asymm (fun hlt => List.lt_asymm hlt) h

/-- **The parts of a path** to which a name is joined are its own, and the name. -/
theorem Path.parts_join {path : Path} {name : String} (hpath : path ≠ "") (hname : IsName name)
    (hslash : '/' ∉ name.toList) : (path.join name).parts = path.parts ++ [.name name] := by
  obtain ⟨hempty, hdot, hdots, -⟩ := hname
  have hpart : laterPart? name = some (.name name) := by
    rw [laterPart?, if_neg (not_or.mpr ⟨hempty, hdot⟩), if_neg hdots]
  obtain ⟨kept, blanks, hsegments, hblanks, hjoin, -, hkept⟩ := segments_join hpath hslash
  obtain ⟨first, inner, rfl⟩ := List.exists_cons_of_ne_nil hkept
  rw [List.cons_append] at hsegments hjoin
  -- blank segments are no parts
  have hnothing : blanks.filterMap laterPart? = [] :=
    List.filterMap_eq_nil_iff.mpr fun s hs => laterPart?_eq_none_iff.mpr (hblanks s hs)
  -- the first segment stands for the same, since an empty one is not the only one
  have hfirst : firstPart? first (inner ++ [name]).isEmpty =
      firstPart? first (inner ++ blanks).isEmpty := by
    by_cases hroot : first = ""
    · have hmore : inner ++ blanks ≠ [] := by
        intro hnil
        rw [hroot, hnil] at hsegments
        exact hpath (eq_empty_of_segments hsegments)
      rw [List.isEmpty_eq_false_iff.mpr hmore, List.isEmpty_eq_false_iff.mpr (by simp)]
    · rw [firstPart?, firstPart?, if_neg hroot, if_neg hroot]
  rw [parts, parts, hsegments, hjoin]
  dsimp only
  rw [hfirst, List.filterMap_append, List.filterMap_append, hnothing, List.append_nil,
    List.filterMap_cons_some hpart, List.filterMap_nil, List.append_assoc]

/-! ## Links at the end of a path -/

/-- A walk that does not follow the last segment ends at a link, or like the walk that does. -/
theorem follow_false (tree : FileTree) (links : Nat) (place : Location) (segments : List String) :
    (∃ goal target, follow tree false links place segments = .ok goal ∧
      tree.at? goal = some (.link target)) ∨
    follow tree false links place segments = follow tree true links place segments := by
  -- the walks part only at a link in the last place, where one of them stops
  fun_induction follow tree false links place segments with
  | case1 links place =>
    right
    rw [follow_nil]
  | case2 links place segment rest hblank ih =>
    rw [follow_blank hblank]
    exact ih
  | case3 links place rest _ ih =>
    rw [follow_parent]
    exact ih
  | case4 links place segment rest hblank hparent hlimit =>
    right
    rw [follow, if_neg hblank, if_neg hparent, if_pos hlimit]
  | case5 links place segment rest hblank hparent hlimit next hnode =>
    right
    rw [follow_name (isName_of_not hblank hparent hlimit), hnode]
  | case6 links place segment rest hblank hparent hlimit next inside hnode ih =>
    rw [follow_name (isName_of_not hblank hparent hlimit), hnode]
    exact ih
  | case7 links place segment rest hblank hparent hlimit next content hnode hlast =>
    right
    rw [follow_name (isName_of_not hblank hparent hlimit), hnode]
    dsimp only
    rw [if_pos hlast]
  | case8 links place segment rest hblank hparent hlimit next content hnode hlast =>
    right
    rw [follow_name (isName_of_not hblank hparent hlimit), hnode]
    dsimp only
    rw [if_neg hlast]
  | case9 links place segment rest hblank hparent hlimit next target hnode hlast =>
    exact .inl ⟨next, target, rfl, hnode⟩
  | case10 place segment rest hblank hparent hlimit next target hnode hlast =>
    right
    rw [follow_name (isName_of_not hblank hparent hlimit), hnode]
    dsimp only
    rw [if_neg (by simp)]
  | case11 place segment rest hblank hparent hlimit next target hnode hlast links start ih =>
    have hmore : (rest.isEmpty && !true) ≠ true := by simp
    rw [follow_name (isName_of_not hblank hparent hlimit), hnode]
    dsimp only
    rw [if_neg hmore]
    exact ih

/-- What a path leads to without its last link is a link, or what it leads to with it. -/
theorem System.lookup_false (system : System) (path : Path) :
    (∃ target, system.lookup path false = .ok (.link target)) ∨
      system.lookup path false = system.lookup path true := by
  by_cases hpath : path = ""
  · right
    rw [lookup, lookup, resolve, resolve, if_pos hpath, if_pos hpath]
  · have hwalk := follow_false system.tree linkLimit
      (if path.isAbsolute then [] else system.workingDirectory) path.segments
    rcases hwalk with ⟨goal, target, hgoal, htarget⟩ | hsame
    · left
      refine ⟨target, lookup_eq_ok_iff.mpr ⟨goal, ?_, htarget⟩⟩
      rw [resolve, if_neg hpath]
      exact hgoal
    · right
      rw [lookup, lookup, resolve, resolve, if_neg hpath, if_neg hpath, hsame]

end Files

namespace Discovery

open Files

/-! ## Sources, and names that are left out -/

/-- A file is a source if its name has the extension of sources. -/
theorem ScanRules.isSource_iff (rules : ScanRules) (path : Path) :
    rules.isSource path = true ↔
      ∃ name, path.fileName? = some name ∧ HasExtension rules.extension name := by
  rw [isSource, beq_iff_eq, Path.extension?_eq_some_iff]

/-- A text occurs in another one if it is a part of it in one piece. -/
theorem occursIn_iff {needle text : List Char} : occursIn needle text = true ↔ needle <:+: text := by
  induction text with
  | nil => rw [occursIn, List.isEmpty_iff, List.infix_nil]
  | cons c rest ih =>
    rw [occursIn, Bool.or_eq_true, ih, List.isPrefixOf_iff_prefix, List.infix_cons_iff]

/-- A name is left out if it starts with a dot, or has the name of directories of other packages
in it. -/
theorem ScanRules.skips_eq_false_iff (rules : ScanRules) (name : String) :
    rules.skips name = false ↔ name.toList.head? ≠ some '.' ∧
      ¬ rules.dependencyDirectory.toList <:+: name.toList := by
  rw [skips, Bool.or_eq_false_iff, beq_eq_false_iff_ne, ← Bool.not_eq_true (occursIn _ _),
    occursIn_iff]

/-! ## Files below a node -/

/-- A file: the names that lead to it from some node, and what it holds. -/
structure Finding where
  way : Location
  content : ByteArray

namespace Finding

/-- The source that a file is, with its path from the path of the node. -/
def source (place : Path) (finding : Finding) : SourceFile :=
  ⟨finding.way.foldl Path.join place, finding.content⟩

/-- The same file, seen from the directory in which the node has a name. -/
def under (name : String) (finding : Finding) : Finding := ⟨name :: finding.way, finding.content⟩

/-- **Whether a file below a node is to be found**, at most so many names away. -/
structure IsWanted (rules : ScanRules) (place : Path) (levels : Nat) (node : FileTree)
    (finding : Finding) : Prop where
  /-- It is a file, and no link leads to it. -/
  isFile : node.at? finding.way = some (.file finding.content)
  near : finding.way.length ≤ levels
  /-- No name on its way, nor its own, begins with a dot or contains the name of directories of
  other packages. -/
  kept : ∀ name ∈ finding.way, name.toList.head? ≠ some '.' ∧
    ¬ rules.dependencyDirectory.toList <:+: name.toList
  /-- The name of the file has the extension of sources. -/
  isSource : ∃ name, (finding.source place).path.fileName? = some name ∧
    HasExtension rules.extension name

variable {rules : ScanRules} {place : Path} {levels : Nat} {node : FileTree} {finding : Finding}

/-- Nothing is below a file. -/
theorem isWanted_file {content : ByteArray} :
    finding.IsWanted rules place levels (.file content) ↔
      finding = ⟨[], content⟩ ∧ rules.isSource place = true := by
  obtain ⟨way, held⟩ := finding
  constructor
  · rintro ⟨hfile, -, -, hsource⟩
    cases way with
    | nil =>
      rw [FileTree.at?_nil, Option.some_inj, FileTree.file.injEq] at hfile
      rw [hfile]
      exact ⟨rfl, (rules.isSource_iff place).mpr hsource⟩
    | cons name rest =>
      rw [FileTree.at?_cons, FileTree.child?_file] at hfile
      cases hfile
  · rintro ⟨heq, hsource⟩
    cases heq
    exact ⟨FileTree.at?_nil _, Nat.zero_le _, by simp, (rules.isSource_iff place).mp hsource⟩

/-- A link is not followed, and is no file itself. -/
theorem not_isWanted_link {target : Path} : ¬ finding.IsWanted rules place levels (.link target) := by
  rintro ⟨hfile, -, -, -⟩
  cases hway : finding.way with
  | nil =>
    rw [hway, FileTree.at?_nil, Option.some_inj] at hfile
    cases hfile
  | cons name rest =>
    rw [hway, FileTree.at?_cons] at hfile
    cases hfile

/-- No file is in a directory that may not be entered. -/
theorem not_isWanted_zero {entries : Entries} :
    ¬ finding.IsWanted rules place 0 (.directory entries) := by
  rintro ⟨hfile, hnear, -, -⟩
  rw [List.length_eq_zero_iff.mp (Nat.le_zero.mp hnear), FileTree.at?_nil, Option.some_inj] at hfile
  cases hfile

/-- **A file below a directory** is to be found below one of the entries that are not left out. -/
theorem isWanted_directory {entries : Entries} (hdistinct : (entries.map Prod.fst).Nodup) :
    finding.IsWanted rules place (levels + 1) (.directory entries) ↔
      ∃ entry ∈ entries, rules.skips entry.1 = false ∧ ∃ below : Finding,
        below.under entry.1 = finding ∧
          below.IsWanted rules (place.join entry.1) levels entry.2 := by
  constructor
  · rintro ⟨hfile, hnear, hkept, hsource⟩
    -- the first name of the way leads into an entry, and what is left of it is found there
    obtain ⟨way, content⟩ := finding
    cases way with
    | nil =>
      rw [FileTree.at?_nil, Option.some_inj] at hfile
      cases hfile
    | cons name rest =>
      rw [FileTree.at?_cons, FileTree.child?_directory] at hfile
      obtain ⟨child, hchild, hrest⟩ := Option.bind_eq_some_iff.mp hfile
      rw [List.forall_mem_cons] at hkept
      refine ⟨(name, child), mem_of_lookup hchild,
        (rules.skips_eq_false_iff name).mpr hkept.1, ⟨rest, content⟩, rfl, hrest, ?_, hkept.2, hsource⟩
      exact Nat.le_of_succ_le_succ hnear
  · rintro ⟨⟨name, child⟩, hentry, hskips, below, rfl, hfile, hnear, hkept, hsource⟩
    refine ⟨?_, Nat.succ_le_succ hnear, ?_, hsource⟩
    · -- distinct names make the entry the one that is found under its name
      have hchild : entries.lookup name = some child := lookup_of_mem hdistinct hentry
      show (FileTree.directory entries).at? (name :: below.way) = _
      rw [FileTree.at?_cons, FileTree.child?_directory, hchild]
      exact hfile
    · show ∀ other ∈ name :: below.way, _
      rw [List.forall_mem_cons]
      exact ⟨(rules.skips_eq_false_iff name).mp hskips, hkept⟩

end Finding

/-- The same files are listed in order in one way only. -/
theorem eq_of_pairwise_precedes {findings others : List Finding}
    (h : findings.Pairwise fun a b => a.way.Precedes b.way)
    (h' : others.Pairwise fun a b => a.way.Precedes b.way)
    (hmem : ∀ finding, finding ∈ findings ↔ finding ∈ others) : findings = others := by
  have : Std.Asymm fun a b : Finding => a.way.Precedes b.way :=
    ⟨fun _ _ => Location.Precedes.asymm⟩
  exact h.eq_of_mem_iff h' hmem

/-- Whether the sources are the files that are wanted, each of them once, in the order of their ways
from a place. -/
def Lists (place : Path) (wanted : Finding → Prop) (sources : List SourceFile) : Prop :=
  ∃ findings : List Finding, sources = findings.map (Finding.source place) ∧
    findings.Pairwise (fun a b => a.way.Precedes b.way) ∧ ∀ finding, finding ∈ findings ↔ wanted finding

namespace Lists

variable {place : Path} {wanted wanted' : Finding → Prop} {sources : List SourceFile}

theorem congr (h : Lists place wanted sources) (hiff : ∀ finding, wanted finding ↔ wanted' finding) :
    Lists place wanted' sources := by
  obtain ⟨findings, hsources, horder, hmem⟩ := h
  exact ⟨findings, hsources, horder, fun finding => (hmem finding).trans (hiff finding)⟩

theorem nil (h : ∀ finding, ¬ wanted finding) : Lists place wanted [] := by
  refine ⟨[], rfl, .nil, fun finding => ?_⟩
  simp [h finding]

theorem self (content : ByteArray) :
    Lists place (· = ⟨[], content⟩) [⟨place, content⟩] :=
  ⟨[⟨[], content⟩], rfl, List.pairwise_singleton _ _, fun _ => List.mem_singleton⟩

/-- **The files below the entries of a directory**, if these are in order. -/
theorem flatMap {entries : Entries} (hsorted : entries.Pairwise fun a b => a.1 < b.1)
    {wanted : String × FileTree → Finding → Prop} {sources : String × FileTree → List SourceFile}
    (h : ∀ entry ∈ entries, Lists (place.join entry.1) (wanted entry) (sources entry)) :
    Lists place (fun finding => ∃ entry ∈ entries, ∃ below : Finding,
      below.under entry.1 = finding ∧ wanted entry below) (entries.flatMap sources) := by
  induction entries with
  | nil => exact nil (by simp)
  | cons entry rest ih =>
    rw [List.forall_mem_cons] at h
    rw [List.pairwise_cons] at hsorted
    obtain ⟨⟨first, hfirst, hfirstOrder, hfirstMem⟩, hrest⟩ := h
    obtain ⟨others, hothers, hothersOrder, hothersMem⟩ := ih hsorted.2 hrest
    refine ⟨first.map (Finding.under entry.1) ++ others, ?_, ?_, fun finding => ?_⟩
    · rw [List.flatMap_cons, hfirst, hothers, List.map_append, List.map_map]
      rfl
    · rw [List.pairwise_append, List.pairwise_map]
      refine ⟨hfirstOrder.imp .cons, hothersOrder, fun a ha b hb => ?_⟩
      -- the names of the entries decide between files below different ones
      obtain ⟨below, -, rfl⟩ := List.mem_map.mp ha
      obtain ⟨other, hother, below', rfl, -⟩ := (hothersMem b).mp hb
      exact .rel (Text.bytes_lt (hsorted.1 other hother))
    · rw [List.mem_append, List.mem_map, hothersMem]
      simp only [hfirstMem, List.mem_cons, exists_eq_or_imp, and_comm]

end Lists

/-! ## The sources below a node -/

section

variable {rules : ScanRules} {place : Path} {levels : Nat}

/-- Different names in order increase. -/
theorem pairwise_lt_mergeSort_names {α : Type} {groups : List (String × α)}
    (hdistinct : (groups.map Prod.fst).Nodup) :
    (groups.mergeSort fun a b => a.1 ≤ b.1).Pairwise fun a b => a.1 < b.1 := by
  have hnodup : ((groups.mergeSort fun a b => a.1 ≤ b.1).map Prod.fst).Nodup :=
    ((List.mergeSort_perm _ _).map Prod.fst).symm.nodup hdistinct
  rw [List.Nodup, List.pairwise_map] at hnodup
  exact (pairwise_mergeSort_names groups).imp₂ (fun a b hle hne => lt_of_le_of_ne hle hne) hnodup

/-- The sources of a directory come entry by entry, in the order of the names. -/
theorem inNameOrder_sourceGroups (entries : Entries) :
    inNameOrder (sourceGroups rules place levels entries) =
      ((entries.filter fun entry => !rules.skips entry.1).mergeSort fun a b => a.1 ≤ b.1).flatMap
        fun entry => sourcesOf rules (place.join entry.1) levels entry.2 := by
  have hsort : ∀ kept : Entries, (kept.mergeSort fun a b => a.1 ≤ b.1).map (fun entry =>
        (entry.1, sourcesOf rules (place.join entry.1) levels entry.2)) =
      (kept.map fun entry => (entry.1, sourcesOf rules (place.join entry.1) levels entry.2)).mergeSort
        fun a b => a.1 ≤ b.1 :=
    fun kept => List.map_mergeSort fun _ _ _ _ => rfl
  rw [sourceGroups_eq, inNameOrder, ← hsort, List.flatMap_map]

/-- A file is its own listing if its name has the extension, and else there is nothing to list. -/
theorem lists_file (content : ByteArray) :
    Lists place (Finding.IsWanted rules place levels (.file content))
      (sourcesOf rules place levels (.file content)) := by
  rw [sourcesOf]
  split
  · next hsource =>
    refine (Lists.self content).congr fun finding => ?_
    rw [Finding.isWanted_file, and_iff_left hsource]
  · next hsource =>
    exact .nil fun finding h => hsource (Finding.isWanted_file.mp h).2

/-- The sources of a directory, if those of its entries are listed. -/
theorem lists_directory {entries : Entries} (hdistinct : (entries.map Prod.fst).Nodup)
    (h : ∀ entry ∈ entries, Lists (place.join entry.1)
      (Finding.IsWanted rules (place.join entry.1) levels entry.2)
      (sourcesOf rules (place.join entry.1) levels entry.2)) :
    Lists place (Finding.IsWanted rules place (levels + 1) (.directory entries))
      (sourcesOf rules place (levels + 1) (.directory entries)) := by
  have hkept : ((entries.filter fun entry => !rules.skips entry.1).map Prod.fst).Nodup :=
    hdistinct.sublist (List.filter_sublist.map Prod.fst)
  have hmem : ∀ entry, entry ∈ ((entries.filter fun entry => !rules.skips entry.1).mergeSort
      fun a b => a.1 ≤ b.1) ↔ entry ∈ entries ∧ rules.skips entry.1 = false := by
    intro entry
    rw [(List.mergeSort_perm _ _).mem_iff, List.mem_filter, Bool.not_eq_true']
  rw [sourcesOf, inNameOrder_sourceGroups]
  refine (Lists.flatMap (pairwise_lt_mergeSort_names hkept) fun entry hentry =>
    h entry ((hmem entry).mp hentry).1).congr fun finding => ?_
  rw [Finding.isWanted_directory hdistinct]
  simp only [hmem, and_assoc]

/-- **The sources below a node** are the files that are to be found, in the order of their ways. -/
theorem lists_sourcesOf (rules : ScanRules) {node : FileTree} (hwf : node.WellFormed)
    (place : Path) (levels : Nat) :
    Lists place (Finding.IsWanted rules place levels node) (sourcesOf rules place levels node) := by
  -- the induction is on the levels of directories that may be entered
  induction levels generalizing node place with
  | zero =>
    cases node with
    | file content => exact lists_file content
    | link target =>
      rw [sourcesOf]
      exact .nil fun finding => Finding.not_isWanted_link
    | directory entries =>
      rw [sourcesOf]
      exact .nil fun finding => Finding.not_isWanted_zero
  | succ levels ih =>
    cases node with
    | file content => exact lists_file content
    | link target =>
      rw [sourcesOf]
      exact .nil fun finding => Finding.not_isWanted_link
    | directory entries =>
      rw [FileTree.WellFormed] at hwf
      refine lists_directory hwf.1 fun entry hentry => ?_
      exact ih (FileTree.wellFormedEntries_iff.mp hwf.2 entry hentry) (place.join entry.1)

end

/-! ## A search -/

/-- A file below a directory has the parts of the path of the directory, and the names that lead to
it. -/
theorem Finding.parts_source {place : Path} (hplace : place ≠ "") {finding : Finding}
    (hnames : ∀ name ∈ finding.way, IsName name ∧ '/' ∉ name.toList) :
    (finding.source place).path.parts = place.parts ++ finding.way.map .name := by
  obtain ⟨way, content⟩ := finding
  show (way.foldl Path.join place).parts = place.parts ++ way.map .name
  induction way generalizing place with
  | nil => rw [List.foldl_nil, List.map_nil, List.append_nil]
  | cons name rest ih =>
    rw [List.forall_mem_cons] at hnames
    have hparts := Path.parts_join hplace hnames.1.1 hnames.1.2
    -- a path with a part is not empty
    have hjoin : place.join name ≠ "" := by
      intro hempty
      rw [hempty] at hparts
      exact List.append_ne_nil_of_right_ne_nil _ (List.cons_ne_nil _ _) hparts.symm
    rw [List.foldl_cons, ih hjoin hnames.2, hparts, List.map_cons, List.append_assoc]
    rfl

/-- The last name of its path is the last one on its way. -/
theorem Finding.fileName?_source {place : Path} (hplace : place ≠ "") {finding : Finding}
    (hnames : ∀ name ∈ finding.way, IsName name ∧ '/' ∉ name.toList) (hway : finding.way ≠ []) :
    (finding.source place).path.fileName? = finding.way.getLast? := by
  obtain ⟨above, name, hlast⟩ := (List.eq_nil_or_concat finding.way).resolve_left hway
  rw [List.concat_eq_append] at hlast
  rw [Path.fileName?, parts_source hplace hnames, hlast, List.map_append, List.map_singleton,
    ← List.append_assoc, List.getLast?_concat, List.getLast?_concat]

section

variable {system : System} {root : Path}

/-- A search of a place at which there is nothing finds nothing. -/
theorem value_scan_of_error {fault : Fault} (h : system.lookup root true = .error fault)
    (depth : Nat) (rules : ScanRules) : (scan system root depth rules).value = [] := by
  rw [value_scan]
  rcases system.lookup_false root with ⟨target, hlink⟩ | hsame
  · rw [hlink, h]
    rfl
  · rw [hsame, h]
    rfl

/-- A search of a directory finds the sources below it, whether or not a link leads to it. -/
theorem value_scan_of_directory {entries : Entries}
    (h : system.lookup root true = .ok (.directory entries)) (depth : Nat) (rules : ScanRules) :
    (scan system root depth rules).value =
      sourcesOf rules root (depth + 1) (.directory entries) := by
  rw [value_scan]
  rcases system.lookup_false root with ⟨target, hlink⟩ | hsame
  · rw [hlink, h]
    rfl
  · rw [hsame, h]
    rfl

/-- **A search** of a directory finds the files that are wanted below it, each of them once, in the
order of their ways. It finds nothing if there is nothing where it begins. -/
theorem scan_listing (hwf : system.tree.WellFormed) (root : Path) (depth : Nat)
    (rules : ScanRules) :
    (∀ fault, system.lookup root true = .error fault → (scan system root depth rules).value = []) ∧
    ∀ entries, system.lookup root true = .ok (.directory entries) → ∃ findings : List Finding,
      (scan system root depth rules).value = findings.map (Finding.source root) ∧
      findings.Pairwise (fun a b => a.way.Precedes b.way) ∧
      (∀ finding, finding ∈ findings ↔
        finding.IsWanted rules root (depth + 1) (.directory entries)) ∧
      ∀ finding ∈ findings, (∀ name ∈ finding.way, IsName name ∧ '/' ∉ name.toList) →
        (finding.source root).path.parts = root.parts ++ finding.way.map .name ∧
        (finding.source root).path.fileName? = finding.way.getLast? := by
  constructor
  · intro fault hfault
    exact value_scan_of_error hfault depth rules
  · intro entries hentries
    obtain ⟨location, hresolve, hlocation⟩ := System.lookup_eq_ok_iff.mp hentries
    -- the empty path leads nowhere
    have hroot : root ≠ "" := by
      rintro rfl
      cases hresolve
    obtain ⟨findings, hsources, horder, hmem⟩ :=
      lists_sourcesOf rules (hwf.of_at? hlocation) root (depth + 1)
    refine ⟨findings, ?_, horder, hmem, fun finding hfinding hnames => ?_⟩
    · rw [value_scan_of_directory hentries, hsources]
    · -- the directory itself is no file
      have hway : finding.way ≠ [] := by
        intro hnil
        have hfile := ((hmem finding).mp hfinding).isFile
        rw [hnil, FileTree.at?_nil, Option.some_inj] at hfile
        cases hfile
      exact ⟨Finding.parts_source hroot hnames, Finding.fileName?_source hroot hnames hway⟩

end

/-- A directory with sources at two levels, a hidden directory, a link, and a directory whose name
begins that of a source. -/
def crowdedEntries (content : ByteArray) : Entries := [
  ("card.tsx", .file content),
  (".cache", .directory [("old.tsx", .file content)]),
  ("card", .directory [("row.tsx", .file content), ("row.css", .file content)]),
  ("alias.tsx", .link "card.tsx")]

/-- A drive with this directory. -/
def crowdedDrive (content : ByteArray) : System where
  tree := .directory [("src", .directory (crowdedEntries content))]

/-- The files that are wanted there. -/
theorem isWanted_crowdedEntries_iff {content : ByteArray} {finding : Finding} :
    finding.IsWanted {} "/src" 2 (.directory (crowdedEntries content)) ↔
      finding = ⟨["card", "row.tsx"], content⟩ ∨ finding = ⟨["card.tsx"], content⟩ := by
  have hkept : ScanRules.skips {} "card.tsx" = false ∧ ScanRules.skips {} ".cache" = true ∧
      ScanRules.skips {} "card" = false ∧ ScanRules.skips {} "row.tsx" = false ∧
      ScanRules.skips {} "row.css" = false := by decide
  have hsource : ScanRules.isSource {} (Path.join "/src" "card.tsx") = true ∧
      ScanRules.isSource {} (Path.join (Path.join "/src" "card") "row.tsx") = true ∧
      ScanRules.isSource {} (Path.join (Path.join "/src" "card") "row.css") = false :=
    ⟨rfl, rfl, rfl⟩
  have hinner : ([("row.tsx", FileTree.file content), ("row.css", .file content)].map
      Prod.fst).Nodup := by simp
  have houter : ((crowdedEntries content).map Prod.fst).Nodup := by simp [crowdedEntries]
  have hfound : finding.IsWanted {} "/src" 2 (.directory (crowdedEntries content)) ↔
      Finding.under "card.tsx" ⟨[], content⟩ = finding ∨
        (Finding.under "row.tsx" ⟨[], content⟩).under "card" = finding := by
    rw [Finding.isWanted_directory houter]
    simp [crowdedEntries, Finding.isWanted_directory hinner, Finding.isWanted_file,
      Finding.not_isWanted_link, hkept, hsource]
  exact hfound.trans (or_comm.trans (or_congr eq_comm eq_comm))

/-- A search of the directory, one level deep, finds the source in the directory `card` before the
one that is called `card.tsx`. A search elsewhere finds nothing. -/
theorem scan_listing_crowdedDrive :
    (crowdedDrive .empty).tree.WellFormed ∧
    (crowdedDrive .empty).lookup "/src" true = .ok (.directory (crowdedEntries .empty)) ∧
    (∀ finding : Finding, finding.IsWanted {} "/src" 2 (.directory (crowdedEntries .empty)) ↔
      finding = ⟨["card", "row.tsx"], .empty⟩ ∨ finding = ⟨["card.tsx"], .empty⟩) ∧
    (scan (crowdedDrive .empty) "/src" 1 {}).value =
      [⟨"/src/card/row.tsx", .empty⟩, ⟨"/src/card.tsx", .empty⟩] ∧
    (scan (crowdedDrive .empty) "/lib" 1 {}).value = [] := by
  have hwf : (crowdedDrive .empty).tree.WellFormed := by
    simp [crowdedDrive, crowdedEntries, FileTree.WellFormed, FileTree.WellFormedEntries]
  have hlookup : (crowdedDrive .empty).lookup "/src" true =
      .ok (.directory (crowdedEntries .empty)) := by
    cbv
  have hmissing : (crowdedDrive .empty).lookup "/lib" true = .error .missing := by
    cbv
  obtain ⟨findings, hsources, horder, hmem, -⟩ := (scan_listing hwf "/src" 1 {}).2 _ hlookup
  -- two lists with the same findings in the same order are the same
  have hfindings : findings = [⟨["card", "row.tsx"], .empty⟩, ⟨["card.tsx"], .empty⟩] := by
    refine eq_of_pairwise_precedes horder ?_ fun finding => ?_
    · have hfirst : Location.Precedes ["card", "row.tsx"] ["card.tsx"] :=
        .rel (Text.bytes_lt (by decide))
      exact List.pairwise_pair.mpr hfirst
    · rw [hmem, isWanted_crowdedEntries_iff, List.mem_pair]
  refine ⟨hwf, hlookup, fun _ => isWanted_crowdedEntries_iff, ?_,
    (scan_listing hwf "/lib" 1 {}).1 _ hmissing⟩
  rw [hsources, hfindings]
  rfl

end Discovery

end Mosaic
