import Mathlib.Data.List.Basic
import Mathlib.Data.List.TakeWhile
import Mosaic.Files.Replacement

/-!
# The segments of a path

A path is taken apart at its slashes, and the name at its end once more at its last dot.

* `segments_ofSegments`: a path made of segments has these segments.
* `slash_not_mem_segments`: no segment contains a slash.
* `segments_join`: a name joined to a path is its last segment.
* `segments_directoryOf`: the directory of a path has the segments of the path but the last,
  up to those at the end that stand for nothing.
* `HasExtension`, `extension?_eq_some_iff`: the extension of a path is that of its last name.
-/

namespace Mosaic.Text

/-- What pieces are made of has no separator in it. -/
theorem separator_not_mem_pieces {separator : Char} {text piece : List Char}
    (h : piece ∈ pieces separator text) : separator ∉ piece := by
  induction text generalizing piece with
  | nil =>
    rw [pieces, List.mem_singleton] at h
    rw [h]
    exact List.not_mem_nil
  | cons c rest ih =>
    rw [pieces] at h
    by_cases hc : c = separator
    · rw [if_pos hc] at h
      rcases List.mem_cons.mp h with rfl | hrest
      · exact List.not_mem_nil
      · exact ih hrest
    · rw [if_neg hc] at h
      -- the character goes to the front of the first piece
      split at h
      · next hrest =>
        rw [List.mem_singleton] at h
        rw [h, List.mem_singleton]
        exact Ne.symm hc
      · next first others hrest =>
        rcases List.mem_cons.mp h with rfl | hothers
        · rw [List.mem_cons, not_or]
          exact ⟨Ne.symm hc, ih (hrest ▸ List.mem_cons_self ..)⟩
        · exact ih (hrest ▸ List.mem_cons_of_mem _ hothers)

theorem pieces_ne_nil (separator : Char) (text : List Char) : pieces separator text ≠ [] := by
  cases text with
  | nil => exact List.cons_ne_nil _ _
  | cons c rest =>
    rw [pieces]
    split
    · exact List.cons_ne_nil _ _
    · split <;> exact List.cons_ne_nil _ _

/-- A text without separators is one piece. -/
theorem pieces_of_not_mem {separator : Char} {text : List Char} (h : separator ∉ text) :
    pieces separator text = [text] := by
  induction text with
  | nil => rfl
  | cons c rest ih =>
    rw [List.mem_cons, not_or] at h
    rw [pieces, if_neg (Ne.symm h.1), ih h.2]

/-- A separator ends the pieces of what is before it. -/
theorem pieces_append_separator (separator : Char) (first rest : List Char) :
    pieces separator (first ++ separator :: rest) =
      pieces separator first ++ pieces separator rest := by
  induction first with
  | nil => exact if_pos rfl
  | cons c first ih =>
    rw [List.cons_append, pieces, pieces, ih]
    split
    · rw [List.cons_append]
    · -- the character goes to the front of the first piece, and there is one
      obtain ⟨piece, others, hpieces⟩ := List.exists_cons_of_ne_nil (pieces_ne_nil separator first)
      rw [hpieces, List.cons_append]
      rfl

/-- The first piece ends at the first separator. -/
theorem pieces_append {separator : Char} {first : List Char} (h : separator ∉ first)
    (rest : List Char) :
    pieces separator (first ++ separator :: rest) = first :: pieces separator rest := by
  rw [pieces_append_separator, pieces_of_not_mem h, List.singleton_append]

/-- Pieces that are put together with separators come apart again. -/
theorem pieces_intercalate {separator : Char} {parts : List (List Char)} (hne : parts ≠ [])
    (h : ∀ part ∈ parts, separator ∉ part) :
    pieces separator ([separator].intercalate parts) = parts := by
  induction parts with
  | nil => exact absurd rfl hne
  | cons first rest ih =>
    rw [List.forall_mem_cons] at h
    cases rest with
    | nil => rw [List.intercalate_singleton, pieces_of_not_mem h.1]
    | cons second others =>
      rw [List.intercalate_cons_cons, List.append_assoc, List.singleton_append,
        pieces_append h.1, ih (List.cons_ne_nil _ _) h.2]

end Mosaic.Text

namespace Mosaic.Files

namespace Path

variable {path : Path} {segment : String}

theorem slash_not_mem_segments (h : segment ∈ path.segments) : '/' ∉ segment.toList := by
  obtain ⟨piece, hpiece, rfl⟩ := List.mem_map.mp h
  rw [String.toList_ofList]
  exact Text.separator_not_mem_pieces hpiece

theorem segments_ne_nil (path : Path) : path.segments ≠ [] :=
  fun h => Text.pieces_ne_nil '/' path.toList (List.map_eq_nil_iff.mp h)

/-- **A path made of segments** has these segments. -/
theorem segments_ofSegments {segments : List String} (hne : segments ≠ [])
    (h : ∀ segment ∈ segments, '/' ∉ segment.toList) : (ofSegments segments).segments = segments := by
  have hlist : (ofSegments segments).toList = ['/'].intercalate (segments.map String.toList) :=
    String.toList_intercalate
  have hpieces : Text.pieces '/' (ofSegments segments).toList = segments.map String.toList := by
    rw [hlist]
    refine Text.pieces_intercalate (fun hnil => hne (List.map_eq_nil_iff.mp hnil)) ?_
    rintro _ hpart
    obtain ⟨segment, hsegment, rfl⟩ := List.mem_map.mp hpart
    exact h segment hsegment
  rw [Path.segments, hpieces, List.map_map]
  refine (List.map_congr_left fun segment _ => ?_).trans (List.map_id segments)
  exact String.ofList_toList

theorem segments_of_slash_not_mem (h : '/' ∉ path.toList) : path.segments = [path] := by
  rw [Path.segments, Text.pieces_of_not_mem h, List.map_singleton, String.ofList_toList]

/-- Only the empty path has nothing but an empty segment. -/
theorem eq_empty_of_segments (h : path.segments = [""]) : path = "" := by
  obtain ⟨piece, hpieces, hpiece⟩ := List.map_eq_singleton_iff.mp h
  have hnil : piece = [] := String.ofList_eq_empty_iff.mp hpiece
  cases hpath : path.toList with
  | nil => exact String.toList_eq_nil_iff.mp hpath
  | cons c chars =>
    rw [hpath, Text.pieces, hnil] at hpieces
    split at hpieces
    · -- a slash ends one piece, and another one follows
      exact absurd (List.cons.inj hpieces).2 (Text.pieces_ne_nil '/' chars)
    · -- any other character is in the first piece
      split at hpieces <;> cases hpieces

/-- The empty path has one segment only. -/
theorem ne_empty_of_segments {first second : String} {rest : List String}
    (h : path.segments = first :: second :: rest) : path ≠ "" := by
  rintro rfl
  exact absurd (List.cons.inj h).2.symm (List.cons_ne_nil second rest)

/-- A path is absolute if its first segment is empty and there is another one. -/
theorem isAbsolute_iff {first : String} {rest : List String} (h : path.segments = first :: rest) :
    path.isAbsolute = true ↔ first = "" ∧ rest ≠ [] := by
  rw [Path.segments] at h
  rw [isAbsolute]
  cases hpath : path.toList with
  | nil =>
    rw [hpath, Text.pieces, List.map_singleton] at h
    refine iff_of_false (fun hslash => ?_) (fun hrest => hrest.2 (List.cons.inj h).2.symm)
    cases hslash
  | cons c chars =>
    rw [hpath, Text.pieces] at h
    rw [List.head?_cons, beq_iff_eq, Option.some_inj]
    by_cases hc : c = '/'
    · rw [if_pos hc, List.map_cons] at h
      obtain ⟨hfirst, hrest⟩ := List.cons.inj h
      refine iff_of_true hc ⟨hfirst.symm, fun hnil => ?_⟩
      exact Text.pieces_ne_nil '/' chars (List.map_eq_nil_iff.mp (hrest.trans hnil))
    · refine iff_of_false hc fun hempty => ?_
      -- a first segment that starts with another character is not empty
      have hcons : ∀ piece : List Char, String.ofList (c :: piece) ≠ first := by
        rintro piece rfl
        have hlist := congrArg String.toList hempty.1
        rw [String.toList_ofList] at hlist
        cases hlist
      rw [if_neg hc] at h
      split at h <;> exact hcons _ (List.cons.inj h).1

/-- Whether a path is absolute is seen from its first segments. -/
theorem isAbsolute_congr {other : Path} {first : String} {rest rest' : List String}
    (h : path.segments = first :: rest) (hother : other.segments = first :: rest')
    (hrest : first = "" → (rest ≠ [] ↔ rest' ≠ [])) : path.isAbsolute = other.isAbsolute := by
  rw [Bool.eq_iff_iff, isAbsolute_iff h, isAbsolute_iff hother]
  exact and_congr_right hrest

/-! ## Joined paths -/

/-- **A name joined to a path** follows the segments of the path, but for an empty one at the end,
and the way starts from the same place. -/
theorem segments_join {name : String} (hpath : path ≠ "") (hname : '/' ∉ name.toList) :
    ∃ kept blanks, path.segments = kept ++ blanks ∧ (∀ s ∈ blanks, s = "" ∨ s = ".") ∧
      (path.join name).segments = kept ++ [name] ∧
      (path.join name).isAbsolute = path.isAbsolute ∧ kept ≠ [] := by
  -- a name without a slash is no absolute path, so it goes behind the path
  have hrelative : ¬(isAbsolute name = true ∨ path = "") := by
    rw [not_or]
    refine ⟨fun habsolute => hname ?_, hpath⟩
    exact List.mem_of_mem_head? (beq_iff_eq.mp habsolute)
  have hchars : path.toList ≠ [] := mt String.toList_eq_nil_iff.mp hpath
  have hpieces := Text.pieces_of_not_mem hname
  rw [join, if_neg hrelative]
  by_cases hslash : path.toList.getLast? = some '/'
  · -- the path ends in a slash already
    obtain ⟨chars, hlist⟩ := List.getLast?_eq_some_iff.mp hslash
    rw [if_pos hslash]
    refine ⟨(Text.pieces '/' chars).map String.ofList, [""], ?_, by simp, ?_, ?_, ?_⟩
    · rw [segments, hlist, Text.pieces_append_separator, List.map_append]
      rfl
    · rw [segments, String.toList_append, hlist, List.append_assoc, List.singleton_append,
        Text.pieces_append_separator, hpieces, List.map_append, List.map_singleton,
        String.ofList_toList]
    · rw [isAbsolute, isAbsolute, String.toList_append, List.head?_append_of_ne_nil _ hchars]
    · exact fun hnil => Text.pieces_ne_nil '/' chars (List.map_eq_nil_iff.mp hnil)
  · -- a slash is put between the path and the name
    rw [if_neg hslash]
    have hlist : (path ++ "/" ++ name).toList = path.toList ++ '/' :: name.toList := by
      rw [String.toList_append, String.toList_append, List.append_assoc]
      rfl
    refine ⟨path.segments, [], (List.append_nil _).symm, by simp, ?_, ?_, segments_ne_nil path⟩
    · rw [segments, hlist, Text.pieces_append_separator, hpieces, List.map_append,
        List.map_singleton, String.ofList_toList, segments]
    · rw [isAbsolute, isAbsolute, hlist, List.head?_append_of_ne_nil _ hchars]

/-! ## The directory of a path -/

theorem laterPart?_eq_none_iff : laterPart? segment = none ↔ segment = "" ∨ segment = "." := by
  rw [laterPart?]
  split
  · next h => exact iff_of_true rfl h
  · next h => split <;> exact iff_of_false (Option.some_ne_none _) h

/-- Segments that stand for nothing are left out at the end. -/
theorem exists_trimEnd_append (segments : List String) :
    ∃ blanks, segments = trimEnd segments ++ blanks ∧ ∀ s ∈ blanks, s = "" ∨ s = "." := by
  refine ⟨(segments.reverse.takeWhile fun s => (laterPart? s).isNone).reverse, ?_, ?_⟩
  · rw [trimEnd, ← List.reverse_append, List.takeWhile_append_dropWhile, List.reverse_reverse]
  · intro s hs
    have hnone : (laterPart? s).isNone = true :=
      List.all_eq_true.mp List.all_takeWhile s (List.mem_reverse.mp hs)
    exact laterPart?_eq_none_iff.mp (Option.isNone_iff_eq_none.mp hnone)

theorem trimEnd_concat {last : String} (h : laterPart? last ≠ none) (segments : List String) :
    trimEnd (segments ++ [last]) = segments ++ [last] := by
  have hlast : ¬(laterPart? last).isNone = true := fun hnone => h (Option.isNone_iff_eq_none.mp hnone)
  rw [trimEnd, List.reverse_append, List.reverse_singleton, List.singleton_append,
    List.dropWhile_cons, if_neg hlast, List.reverse_cons, List.reverse_reverse]

theorem parent?_of_singleton_eq {last : String} (h : path.segments = [last]) : path.parent? =
    match firstPart? last true with
    | none | some .root => none
    | some _ => some "" := by
  rw [parent?, h]
  rfl

/-- The parent of a path with one segment. -/
theorem parent?_of_singleton {last : String} (h : path.segments = [last])
    (hlast : laterPart? last ≠ none) : path.parent? = some "" := by
  have hblank : ¬(last = "" ∨ last = ".") := fun hblank => hlast (laterPart?_eq_none_iff.mpr hblank)
  rw [not_or] at hblank
  have hpart : firstPart? last true = laterPart? last := by
    rw [firstPart?, if_neg hblank.1, if_neg hblank.2]
  obtain ⟨part, hsome⟩ := Option.ne_none_iff_exists'.mp hlast
  have hroot : part ≠ .root := by
    rintro rfl
    rw [laterPart?, if_neg (not_or.mpr hblank)] at hsome
    split at hsome <;> cases hsome
  rw [parent?_of_singleton_eq h, hpart, hsome]
  cases part with
  | root => exact absurd rfl hroot
  | current | parent | name => rfl

/-- The parent of a path with more segments. -/
theorem parent?_of_cons {first last : String} {inner : List String}
    (h : path.segments = first :: (inner ++ [last])) (hlast : laterPart? last ≠ none) :
    path.parent? =
      match trimEnd inner with
      | [] => some (if first = "" then "/" else first)
      | above => some (ofSegments (first :: above)) := by
  rw [parent?, h]
  simp only [trimEnd_concat hlast]
  split
  · next hnil => exact absurd hnil (List.append_ne_nil_of_right_ne_nil _ (List.cons_ne_nil _ _))
  · rewrite [List.dropLast_concat]
    rfl

theorem directoryOf_of_parent {parent : Path} (h : path.parent? = some parent)
    (hparent : parent ≠ "") : System.directoryOf path = parent := by
  rw [System.directoryOf, h]
  split
  · next hnone => cases hnone
  · next hempty => exact absurd (Option.some.inj hempty) hparent
  · next hsome => exact (Option.some.inj hsome).symm

theorem directoryOf_of_singleton {last : String} (h : path.segments = [last])
    (hlast : laterPart? last ≠ none) : System.directoryOf path = "." := by
  rw [System.directoryOf, parent?_of_singleton h hlast]
  rfl

section

variable {first last : String} {inner : List String}
  (h : path.segments = first :: (inner ++ [last])) (hlast : laterPart? last ≠ none)
include h hlast

/-- With nothing between the first and the last segment, the first one is left. -/
theorem directoryOf_of_trimEnd_nil (htrim : trimEnd inner = []) :
    System.directoryOf path = if first = "" then "/" else first := by
  have hparent : path.parent? = some (if first = "" then "/" else first) := by
    rw [parent?_of_cons h hlast, htrim]
  refine directoryOf_of_parent hparent ?_
  split
  · decide
  · assumption

theorem segments_directoryOf_of_trimEnd_cons {second : String} {others left : List String}
    (htrim : trimEnd inner = second :: others) (hleft : inner = trimEnd inner ++ left) :
    (System.directoryOf path).segments = first :: second :: others := by
  have hparent : path.parent? = some (ofSegments (first :: second :: others)) := by
    rw [parent?_of_cons h hlast, htrim]
  have hkept : ∀ s ∈ first :: second :: others, '/' ∉ s.toList := by
    intro s hs
    rw [hleft, htrim, List.append_assoc, ← List.cons_append] at h
    exact slash_not_mem_segments (h ▸ List.mem_append_left _ hs)
  have hsegments := segments_ofSegments (List.cons_ne_nil first (second :: others)) hkept
  rw [directoryOf_of_parent hparent (ne_empty_of_segments hsegments), hsegments]

end

/-- **The directory of a path** has all segments of the path but the last, up to some at the end
that stand for nothing, and it starts from the same place. -/
theorem segments_directoryOf {above : List String} {last : String}
    (h : path.segments = above ++ [last]) (hlast : laterPart? last ≠ none) :
    ∃ kept left right, above = kept ++ left ∧ (System.directoryOf path).segments = kept ++ right ∧
      (∀ s ∈ left ++ right, s = "" ∨ s = ".") ∧
      (System.directoryOf path).isAbsolute = path.isAbsolute := by
  -- a path of one segment is in the current directory, for which there is a name of its own
  cases above with
  | nil =>
    have habsolute : path.isAbsolute = false := by
      rw [← Bool.not_eq_true, isAbsolute_iff h]
      exact fun hrest => hrest.2 rfl
    rw [directoryOf_of_singleton h hlast, habsolute]
    exact ⟨[], [], ["."], rfl, rfl, by simp, rfl⟩
  | cons first inner =>
    have hrest : inner ++ [last] ≠ [] :=
      List.append_ne_nil_of_right_ne_nil _ (List.cons_ne_nil _ _)
    -- empty segments and dots at the end of what is above are dropped, and nothing else
    obtain ⟨left, hleft, hblanks⟩ := exists_trimEnd_append inner
    cases htrim : trimEnd inner with
    | nil =>
      -- nothing is left of what is above but its first segment
      have hdirectory := directoryOf_of_trimEnd_nil h hlast htrim
      rw [htrim, List.nil_append] at hleft
      by_cases hfirst : first = ""
      · -- only the root is above the last segment, with another empty segment behind its slash
        have hsegments : Path.segments "/" = "" :: [""] := rfl
        have habsolute : Path.isAbsolute "/" = path.isAbsolute :=
          isAbsolute_congr hsegments (hfirst ▸ h) fun _ => by simp [hrest]
        rw [hdirectory, if_pos hfirst]
        refine ⟨[first], left, [""], by rw [hleft]; rfl, by rw [hfirst]; rfl, ?_, habsolute⟩
        intro s hs
        rcases List.mem_append.mp hs with hs | hs
        · exact hblanks s hs
        · exact .inl (List.mem_singleton.mp hs)
      · have hslash : '/' ∉ first.toList :=
          slash_not_mem_segments (by rw [h]; exact List.mem_cons_self ..)
        have hsegments := segments_of_slash_not_mem hslash
        rw [hdirectory, if_neg hfirst]
        refine ⟨[first], left, [], by rw [hleft]; rfl, hsegments, ?_,
          isAbsolute_congr hsegments h fun hempty => absurd hempty hfirst⟩
        rw [List.append_nil]
        exact hblanks
    | cons second others =>
      have hsegments := segments_directoryOf_of_trimEnd_cons h hlast htrim hleft
      rw [htrim] at hleft
      refine ⟨first :: second :: others, left, [], by rw [hleft]; rfl,
        by rw [hsegments, List.append_nil], ?_,
        isAbsolute_congr hsegments h fun _ => by simp [hrest]⟩
      rw [List.append_nil]
      exact hblanks

/-! ## Extensions -/

/-- The last dot of a text is the first one from behind. -/
theorem span_reverse_append_dot {rest : List Char} (hrest : '.' ∉ rest) (stem : List Char) :
    (stem ++ '.' :: rest).reverse.takeWhile (· ≠ '.') = rest.reverse ∧
    (stem ++ '.' :: rest).reverse.dropWhile (· ≠ '.') = '.' :: stem.reverse := by
  have hall : ∀ c ∈ rest.reverse, decide (c ≠ '.') = true := by
    intro c hc
    refine decide_eq_true ?_
    rintro rfl
    exact hrest (List.mem_reverse.mp hc)
  rw [List.reverse_append, List.reverse_cons, List.append_assoc, List.takeWhile_append_of_pos hall,
    List.dropWhile_append_of_pos hall]
  simp

/-- A text with something before its last dot is this, the dot, and what follows. -/
theorem exists_eq_append_dot {text : List Char}
    (h : (text.reverse.dropWhile (· ≠ '.')).drop 1 ≠ []) :
    ∃ stem, stem ≠ [] ∧ text = stem ++ '.' :: (text.reverse.takeWhile (· ≠ '.')).reverse := by
  have hspan := List.takeWhile_append_dropWhile (p := fun c => decide (c ≠ '.')) (l := text.reverse)
  have hhead := List.head?_dropWhile_not (fun c => decide (c ≠ '.')) text.reverse
  cases hrest : text.reverse.dropWhile (· ≠ '.') with
  | nil =>
    rw [hrest] at h
    exact absurd rfl h
  | cons c stem =>
    rw [hrest] at h hhead hspan
    obtain rfl : c = '.' := by simpa using hhead
    refine ⟨stem.reverse, List.reverse_ne_nil_iff.mpr h, List.reverse_injective ?_⟩
    rw [List.reverse_append, List.reverse_cons, List.reverse_reverse, List.reverse_reverse,
      List.append_assoc]
    exact hspan.symm

end Path

/-- Whether a name has an extension: this follows the last dot, and something stands before it. -/
def HasExtension (extension name : String) : Prop :=
  '.' ∉ extension.toList ∧ ∃ stem : String, stem ≠ "" ∧ name = stem ++ "." ++ extension

/-- **The extension of a path** is the extension that its last name has, if it has one. -/
theorem Path.extension?_eq_some_iff {path : Path} {extension : String} :
    path.extension? = some extension ↔
      ∃ name, path.fileName? = some name ∧ HasExtension extension name := by
  simp only [extension?, Option.bind_eq_bind, Option.bind_eq_some_iff]
  refine exists_congr fun name => and_congr_right fun _ => ?_
  constructor
  · intro h
    split at h
    · cases h
    · next hstem =>
      rw [List.isEmpty_iff] at hstem
      obtain ⟨stem, hne, htext⟩ := exists_eq_append_dot hstem
      rw [← Option.some.inj h]
      refine ⟨fun hdot => ?_, .ofList stem, by simpa using hne, String.toList_inj.mp ?_⟩
      · -- a dot would have ended what follows the last one
        rw [String.toList_ofList, List.mem_reverse] at hdot
        simpa using List.mem_takeWhile_imp hdot
      · simpa using htext
  · rintro ⟨hextension, stem, hstem, rfl⟩
    have htext : (stem ++ "." ++ extension).toList = stem.toList ++ '.' :: extension.toList := by
      simp
    obtain ⟨htake, hdrop⟩ := span_reverse_append_dot hextension stem.toList
    rw [htext, htake, hdrop]
    simp [hstem]

end Mosaic.Files
