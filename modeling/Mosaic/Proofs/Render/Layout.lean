import Mathlib.Data.List.Basic
import Mathlib.Data.List.DropRight
import Mosaic.Proofs.Files.Path
import Mosaic.Proofs.Render.Dispatch
import Mosaic.Render.PlainText

/-!
# The layout of printed trees

A tree is printed line by line, and what stands inside nested rows is indented. Every line of a
unit is, and so is the first line of a placeholder; the text of a placeholder is not divided into
lines, so that a name with a line feed in it goes on at the left margin.

* `Text.pieces_trimEnd_joined`: the lines of a text that was put together from lines.
* `Line`, `written`: the lines of a tree, each with the rows around it and what it is written for.
* `shows_print`: these are the lines of the printed tree, up to blanks at the end.
* `Inside`: the parts of a tree, and in how many rows they are.
* `print_lines`: which lines are indented, and when all of them are.
* `printsIndented_renderValue`: they are unless a type or a field has a line feed in its name.
-/

namespace Mosaic

/-! ## Lines put together -/

namespace Text

/-- Some lines, each ended by a line feed. -/
def joined (texts : List (List Char)) : List Char := texts.flatMap (· ++ ['\n'])

theorem joined_cons (text : List Char) (rest : List (List Char)) :
    joined (text :: rest) = text ++ '\n' :: joined rest := by
  rw [joined, List.flatMap_cons, List.append_assoc]
  rfl

/-- Lines are joined one after the other. -/
theorem joined_append (texts others : List (List Char)) :
    joined (texts ++ others) = joined texts ++ joined others := List.flatMap_append

/-- The pieces between line feeds, joined again. -/
theorem joined_pieces (text : List Char) : joined (pieces '\n' text) = text ++ ['\n'] := by
  induction text with
  | nil => rfl
  | cons c rest ih =>
    rw [pieces]
    split
    · next h => rw [joined_cons, ih, h]; rfl
    · obtain ⟨piece, others, hpieces⟩ := List.exists_cons_of_ne_nil (pieces_ne_nil '\n' rest)
      rw [hpieces, joined_cons] at ih
      rw [hpieces, joined_cons, List.cons_append, ih]
      rfl

/-- A character that ends no line goes to the front of the first line. -/
theorem lines_cons {c : Char} {rest : List Char} (hfeed : c ≠ '\n')
    (hreturn : ∀ tail, c = '\r' → rest ≠ '\n' :: tail) :
    lines (c :: rest) =
      match lines rest with
      | [] => [[c]]
      | first :: others => (c :: first) :: others := lines.eq_4 c rest hfeed hreturn

/-- What a text is cut into at its line ends has no line end in it. -/
theorem newline_not_mem_lines {text line : List Char} (h : line ∈ lines text) : '\n' ∉ line := by
  induction text using lines.induct generalizing line with
  | case1 => cases h
  | case2 rest ih | case3 rest ih =>
    rw [lines, List.mem_cons] at h
    rcases h with rfl | h
    · exact List.not_mem_nil
    · exact ih h
  | case4 c rest hfeed hreturn hlines ih =>
    rw [lines_cons hfeed hreturn, hlines, List.mem_singleton] at h
    rw [h, List.mem_singleton]
    exact fun heq => hfeed heq.symm
  | case5 c rest hfeed hreturn first others hlines ih =>
    rw [lines_cons hfeed hreturn, hlines, List.mem_cons] at h
    rcases h with rfl | h
    · rw [List.mem_cons, not_or]
      exact ⟨fun heq => hfeed heq.symm, ih (hlines ▸ List.mem_cons_self ..)⟩
    · exact ih (hlines ▸ List.mem_cons_of_mem _ h)

/-! ### Blanks at the end -/

/-- Only the end of a text is cut off. -/
theorem trimEnd_isPrefix (text : List Char) : trimEnd text <+: text :=
  List.rdropWhile_prefix isBlank text

/-- A text is cut off as a whole if there is nothing but blanks in it. -/
theorem trimEnd_eq_nil_iff {text : List Char} : trimEnd text = [] ↔ text.all isBlank := by
  rw [List.all_eq_true]
  exact List.rdropWhile_eq_nil_iff

theorem all_isBlank_trimEnd {text : List Char} :
    (trimEnd text).all isBlank ↔ text.all isBlank := by
  rw [← trimEnd_eq_nil_iff, ← trimEnd_eq_nil_iff]
  exact iff_of_eq (congrArg (· = []) (List.rdropWhile_idempotent isBlank text))

/-- Blanks at the end are cut off up to the last character that is none. -/
theorem trimEnd_append (a b : List Char) :
    trimEnd (a ++ b) = if b.all isBlank then trimEnd a else a ++ trimEnd b := by
  have hblank : (b.reverse.dropWhile isBlank).isEmpty = b.all isBlank := by
    rw [Bool.eq_iff_iff, List.isEmpty_iff, ← trimEnd_eq_nil_iff, trimEnd, List.reverse_eq_nil_iff]
  rw [trimEnd, List.reverse_append, List.dropWhile_append, hblank]
  split
  · rfl
  · rw [List.reverse_append, List.reverse_reverse]
    rfl

/-- A text is blank if all of its lines are. -/
theorem all_isBlank_joined (texts : List (List Char)) :
    (joined texts).all isBlank = texts.all (·.all isBlank) := by
  rw [joined, List.all_flatMap]
  simp [show isBlank '\n' = true by decide]

/-- What is left of some lines when the blanks at their end are dropped. -/
def trimmed : List (List Char) → List (List Char)
  | [] => [[]]
  | text :: rest => if rest.all (·.all isBlank) then [trimEnd text] else text :: trimmed rest

/-- **The lines of a text that was put together from lines**, once the blanks at its end have been
dropped. -/
theorem pieces_trimEnd_joined {texts : List (List Char)} (h : ∀ text ∈ texts, '\n' ∉ text) :
    pieces '\n' (trimEnd (joined texts)) = trimmed texts := by
  induction texts with
  | nil => rfl
  | cons text rest ih =>
    rw [List.forall_mem_cons] at h
    have hblank : ('\n' :: joined rest).all isBlank = rest.all (·.all isBlank) := by
      rw [List.all_cons, show isBlank '\n' = true by decide, Bool.true_and, all_isBlank_joined]
    rw [joined_cons, trimEnd_append, hblank, trimmed]
    split
    · exact pieces_of_not_mem fun hmem => h.1 ((trimEnd_isPrefix text).subset hmem)
    · next hrest =>
      have htail : trimEnd ('\n' :: joined rest) = '\n' :: trimEnd (joined rest) := by
        rw [← List.singleton_append, trimEnd_append, all_isBlank_joined, if_neg hrest]
        rfl
      rw [htail, pieces_append h.1, ih h.2]

/-- A line is kept, with or without the blanks at its end, unless it is blank and among those that
are dropped. -/
theorem getElem?_trimmed {texts : List (List Char)} {i : Nat} {text : List Char}
    (h : texts[i]? = some text) :
    (∃ kept, (trimmed texts)[i]? = some kept ∧ (kept = text ∨ kept = trimEnd text)) ∨
      (trimmed texts)[i]? = none ∧ text.all isBlank := by
  induction texts generalizing i with
  | nil => cases h
  | cons first rest ih =>
    rw [trimmed]
    -- blank texts are dropped at the end only, and the text before them loses its trailing blanks
    cases i with
    | zero =>
      cases h
      split
      · exact .inl ⟨_, rfl, .inr rfl⟩
      · exact .inl ⟨_, rfl, .inl rfl⟩
    | succ i =>
      rw [List.getElem?_cons_succ] at h
      split
      · next hrest => exact .inr ⟨rfl, List.all_eq_true.mp hrest text (List.mem_of_getElem? h)⟩
      · rw [List.getElem?_cons_succ]
        exact ih h

/-- No lines come up but those that were there; the empty text still has one line. -/
theorem exists_of_getElem?_trimmed {texts : List (List Char)} {i : Nat} {kept : List Char}
    (h : (trimmed texts)[i]? = some kept) (hne : kept ≠ []) : ∃ text, texts[i]? = some text := by
  induction texts generalizing i with
  | nil =>
    cases i with
    | zero => cases h; exact absurd rfl hne
    | succ i => cases h
  | cons first rest ih =>
    rw [trimmed] at h
    cases i with
    | zero => exact ⟨first, rfl⟩
    | succ i =>
      split at h
      · cases h
      · exact ih h

end Text

namespace Render

open Mosaic.Composition

/-! ## The lines of a tree -/

/-- What holds of every row whose children it holds of, and of everything else, holds of every
tree. -/
theorem Rendered.children_induction {α : Type} {motive : Rendered α → Prop}
    (row : ∀ layout children, (∀ child ∈ children, motive child) → motive (.row layout children))
    (unit : ∀ component output, motive (.unit component output))
    (placeholder : ∀ p, motive (.placeholder p)) (tree : Rendered α) : motive tree := by
  induction h : sizeOf tree using Nat.strongRecOn generalizing tree with
  | ind size ih =>
    subst h
    cases tree with
    | row layout children =>
      refine row layout children fun child hchild => ih _ ?_ child rfl
      have hsize := List.sizeOf_lt_of_mem hchild
      simp only [Rendered.row.sizeOf_spec]
      omega
    | unit component output => exact unit component output
    | placeholder p => exact placeholder p

/-- What a line is written for. -/
inductive Source
  | heading
  | separator
  | unit
  | placeholder
  deriving DecidableEq

/-- A line, without its end, and the number of rows around what it is written for. -/
structure Line where
  depth : Nat
  source : Source
  text : List Char

/-- Every line of an output is indented. -/
def unitLines (depth : Nat) (output : String) : List Line :=
  (Text.lines output.toList).map fun line => ⟨depth, .unit, indentation depth ++ line⟩

/-- The first line of a placeholder is indented. -/
def placeholderLines (depth : Nat) (p : Placeholder) : List Line :=
  ((Text.pieces '\n' p.text.toList).modifyHead (indentation depth ++ ·)).map
    (⟨depth, .placeholder, ·⟩)

mutual

/-- The lines that are written for a tree inside `depth` nested rows. -/
def written (depth : Nat) : Rendered String → List Line
  | .row .stack children => writtenStack depth children
  | .row .row children =>
    ⟨depth, .heading, indentation depth ++ "[row]".toList⟩ :: writtenRow (depth + 1) children
  | .unit _ output => unitLines depth output
  | .placeholder p => placeholderLines depth p

/-- The lines of the children of a stack, each with a separator behind it. -/
def writtenStack (depth : Nat) : List (Rendered String) → List Line
  | [] => []
  | child :: rest => written depth child ++ ⟨depth, .separator, []⟩ :: writtenStack depth rest

/-- The lines of the children of a row, one after the other. -/
def writtenRow (depth : Nat) : List (Rendered String) → List Line
  | [] => []
  | child :: rest => written depth child ++ writtenRow depth rest

end

section

variable (depth : Nat)

theorem stackChars_eq_flatMap (children : List (Rendered String)) :
    stackChars depth children = children.flatMap fun child => treeChars depth child ++ ['\n'] := by
  induction children with
  | nil => rw [stackChars, List.flatMap_nil]
  | cons child rest ih => rw [stackChars, ih, List.flatMap_cons, List.append_assoc]; rfl

theorem rowChars_eq_flatMap (children : List (Rendered String)) :
    rowChars depth children = children.flatMap (treeChars depth) := by
  induction children with
  | nil => rw [rowChars, List.flatMap_nil]
  | cons child rest ih => rw [rowChars, ih, List.flatMap_cons]

theorem writtenStack_eq_flatMap (children : List (Rendered String)) :
    writtenStack depth children =
      children.flatMap fun child => written depth child ++ [⟨depth, .separator, []⟩] := by
  induction children with
  | nil => rw [writtenStack, List.flatMap_nil]
  | cons child rest ih => rw [writtenStack, ih, List.flatMap_cons, List.append_assoc]; rfl

theorem writtenRow_eq_flatMap (children : List (Rendered String)) :
    writtenRow depth children = children.flatMap (written depth) := by
  induction children with
  | nil => rw [writtenRow, List.flatMap_nil]
  | cons child rest ih => rw [writtenRow, ih, List.flatMap_cons]

/-- The lines of an output, joined, are the text that is printed for it. -/
theorem joined_unitLines (output : String) :
    Text.joined ((unitLines depth output).map Line.text) = blockChars depth output.toList := by
  rw [unitLines, List.map_map, Text.joined, List.flatMap_map, blockChars]
  rfl

/-- The first line of a placeholder and the further ones, which are as they stand in its text. -/
theorem exists_placeholderLines_eq (p : Placeholder) :
    ∃ first further, Text.pieces '\n' p.text.toList = first :: further ∧
      placeholderLines depth p =
        (((indentation depth ++ first) :: further).map (⟨depth, .placeholder, ·⟩)) := by
  obtain ⟨first, further, hpieces⟩ :=
    List.exists_cons_of_ne_nil (Text.pieces_ne_nil '\n' p.text.toList)
  refine ⟨first, further, hpieces, ?_⟩
  rw [placeholderLines, hpieces, List.modifyHead_cons]

/-- So are those of a placeholder, which is indented as a whole. -/
theorem joined_placeholderLines (p : Placeholder) :
    Text.joined ((placeholderLines depth p).map Line.text) =
      indentation depth ++ p.text.toList ++ ['\n'] := by
  have hjoined := Text.joined_pieces p.text.toList
  obtain ⟨first, further, hpieces, hlines⟩ := exists_placeholderLines_eq depth p
  rw [hpieces, Text.joined_cons] at hjoined
  have htexts : (placeholderLines depth p).map Line.text =
      (indentation depth ++ first) :: further := by
    rw [hlines, List.map_map]
    exact List.map_id _
  rw [htexts, Text.joined_cons, List.append_assoc, hjoined, List.append_assoc]

/-- The texts of lines that are gathered from the parts of a list. -/
theorem joined_flatMap {β : Type} (f : β → List Line) (xs : List β) :
    Text.joined ((xs.flatMap f).map Line.text) =
      xs.flatMap fun x => Text.joined ((f x).map Line.text) := by
  rw [Text.joined, List.map_flatMap, List.flatMap_assoc]
  rfl

end

/-- **A tree is printed line by line.** -/
theorem treeChars_eq_joined (depth : Nat) (tree : Rendered String) :
    treeChars depth tree = Text.joined ((written depth tree).map Line.text) := by
  induction tree using Rendered.children_induction generalizing depth with
  | row layout children ih =>
    cases layout with
    | stack =>
      rw [treeChars, written, stackChars_eq_flatMap, writtenStack_eq_flatMap, joined_flatMap]
      refine List.flatMap_congr fun child hchild => ?_
      rw [ih child hchild, List.map_append, Text.joined_append]
      rfl
    | row =>
      rw [treeChars, written, rowChars_eq_flatMap, writtenRow_eq_flatMap, List.map_cons,
        Text.joined_cons, joined_flatMap, List.flatMap_congr fun child hchild => ih child hchild _]
      simp
  | unit component output => rw [treeChars, written, joined_unitLines]
  | placeholder p => rw [treeChars, written, joined_placeholderLines]

/-- No line ends within its indentation. -/
theorem newline_not_mem_indentation (depth : Nat) : '\n' ∉ indentation depth :=
  fun h => absurd (List.eq_of_mem_replicate h) (by decide)

/-- No line has a line feed in it. -/
theorem newline_not_mem_written {depth : Nat} {tree : Rendered String} {line : Line}
    (h : line ∈ written depth tree) : '\n' ∉ line.text := by
  induction tree using Rendered.children_induction generalizing depth with
  | row layout children ih =>
    cases layout with
    | stack =>
      -- lines come from children, or are blank
      rw [written, writtenStack_eq_flatMap, List.mem_flatMap] at h
      obtain ⟨child, hchild, hline⟩ := h
      rcases List.mem_append.mp hline with hline | hline
      · exact ih child hchild hline
      · rw [List.mem_singleton.mp hline]
        exact List.not_mem_nil
    | row =>
      rw [written, writtenRow_eq_flatMap, List.mem_cons, List.mem_flatMap] at h
      rcases h with rfl | ⟨child, hchild, hline⟩
      · -- the line of a row is its indentation and a word
        rw [List.mem_append, not_or]
        exact ⟨newline_not_mem_indentation depth, by decide⟩
      · exact ih child hchild hline
  | unit component output =>
    rw [written, unitLines, List.mem_map] at h
    obtain ⟨text, htext, rfl⟩ := h
    rw [List.mem_append, not_or]
    exact ⟨newline_not_mem_indentation depth, Text.newline_not_mem_lines htext⟩
  | placeholder p =>
    obtain ⟨first, further, hpieces, hlines⟩ := exists_placeholderLines_eq depth p
    rw [written, hlines, List.mem_map] at h
    obtain ⟨text, htext, rfl⟩ := h
    -- the text of a placeholder is cut at its line feeds, so that no piece has one
    have hfeeds : ∀ piece ∈ first :: further, '\n' ∉ piece := by
      rw [← hpieces]
      exact fun piece hpiece => Text.separator_not_mem_pieces hpiece
    rw [List.forall_mem_cons] at hfeeds
    rcases List.mem_cons.mp htext with rfl | hfurther
    · rw [List.mem_append, not_or]
      exact ⟨newline_not_mem_indentation depth, hfeeds.1⟩
    · exact hfeeds.2 text hfurther

/-! ## The lines of the printed text -/

/-- The lines of a text are some given ones, up to blanks at the end: every given line is there,
with or without the blanks at its own end, or it is blank and the text has ended before. -/
structure Shows (text : String) (lines : List Line) : Prop where
  of_line : ∀ (i : Nat) (line : Line), lines[i]? = some line →
    (∃ piece, (Text.pieces '\n' text.toList)[i]? = some piece ∧
      (piece = line.text ∨ piece = Text.trimEnd line.text)) ∨
    (Text.pieces '\n' text.toList)[i]? = none ∧ line.text.all Text.isBlank
  to_line : ∀ (i : Nat) (piece : List Char),
    (Text.pieces '\n' text.toList)[i]? = some piece → piece ≠ [] → ∃ line, lines[i]? = some line

/-- **The lines of a print** are those that are written for the tree, up to blanks at its end. -/
theorem pieces_print (tree : Rendered String) :
    Text.pieces '\n' (print tree).toList = Text.trimmed ((written 0 tree).map Line.text) := by
  rw [print, String.toList_ofList, treeChars_eq_joined]
  refine Text.pieces_trimEnd_joined fun text htext => ?_
  obtain ⟨line, hline, rfl⟩ := List.mem_map.mp htext
  exact newline_not_mem_written hline

/-- **The printed text has the lines of the tree.** -/
theorem shows_print (tree : Rendered String) : Shows (print tree) (written 0 tree) where
  of_line i line hline := by
    have htext : ((written 0 tree).map Line.text)[i]? = some line.text := by
      rw [List.getElem?_map, hline, Option.map_some]
    rw [pieces_print]
    exact Text.getElem?_trimmed htext
  to_line i piece hpiece hne := by
    rw [pieces_print] at hpiece
    obtain ⟨text, htext⟩ := Text.exists_of_getElem?_trimmed hpiece hne
    rw [List.getElem?_map, Option.map_eq_some_iff] at htext
    obtain ⟨line, hline, -⟩ := htext
    exact ⟨line, hline⟩

/-! ## Indentation -/

/-- A line is blank or begins with the spaces for some nested rows. -/
def IsIndented (depth : Nat) (text : List Char) : Prop :=
  text.all Text.isBlank ∨ indentation depth <+: text

/-- Every line that is printed for the sake of a source is indented by the rows around it. -/
def PrintsIndented (source : Source) (tree : Rendered String) : Prop :=
  ∀ (i : Nat) (line : Line) (piece : List Char), (written 0 tree)[i]? = some line →
    line.source = source → (Text.pieces '\n' (print tree).toList)[i]? = some piece →
      IsIndented line.depth piece

/-- A text behind an indentation is indented. -/
theorem isIndented_append (depth : Nat) (text : List Char) :
    IsIndented depth (indentation depth ++ text) := .inr (List.prefix_append _ _)

theorem all_isBlank_indentation (depth : Nat) : (indentation depth).all Text.isBlank := by
  rw [List.all_eq_true]
  intro c hc
  rw [List.eq_of_mem_replicate hc]
  decide

/-- Blanks at the end of a line do not count. -/
theorem isIndented_trimEnd_iff {depth : Nat} {text : List Char} :
    IsIndented depth (Text.trimEnd text) ↔ IsIndented depth text := by
  by_cases hblank : text.all Text.isBlank
  · rw [Text.trimEnd_eq_nil_iff.mpr hblank]
    exact ⟨fun _ => .inl hblank, fun _ => .inl rfl⟩
  · constructor
    · rintro (hleft | hspaces)
      · exact .inl (Text.all_isBlank_trimEnd.mp hleft)
      · exact .inr (hspaces.trans (Text.trimEnd_isPrefix text))
    · rintro (hleft | ⟨rest, rfl⟩)
      · exact absurd hleft hblank
      · -- what comes after the spaces is not blank, so that they stay
        have hrest : ¬ rest.all Text.isBlank := by
          intro hrest
          rw [List.all_append, all_isBlank_indentation, hrest] at hblank
          exact hblank rfl
        rw [Text.trimEnd_append, if_neg hrest]
        exact isIndented_append depth _

/-- What is printed is indented if what was written is. -/
theorem printsIndented_iff_written {source : Source} {tree : Rendered String} :
    PrintsIndented source tree ↔
      ∀ line ∈ written 0 tree, line.source = source → IsIndented line.depth line.text := by
  -- trimming a line does not change how far it is indented
  constructor
  · intro h line hline hsource
    obtain ⟨i, hi⟩ := List.getElem?_of_mem hline
    rcases (shows_print tree).of_line i line hi with ⟨piece, hpiece, hkept⟩ | ⟨-, hblank⟩
    · have hindented := h i line piece hi hsource hpiece
      rcases hkept with rfl | rfl
      · exact hindented
      · exact isIndented_trimEnd_iff.mp hindented
    · exact .inl hblank
  · intro h i line piece hi hsource hpiece
    have hindented := h line (List.mem_of_getElem? hi) hsource
    rcases (shows_print tree).of_line i line hi with ⟨kept, hkept, hline⟩ | ⟨hnone, -⟩
    · rw [hpiece, Option.some_inj] at hkept
      subst hkept
      rcases hline with rfl | rfl
      · exact hindented
      · exact isIndented_trimEnd_iff.mpr hindented
    · rw [hnone] at hpiece
      cases hpiece

/-! ## Parts of a tree -/

/-- `Inside tree d part`: the tree has the part inside `d` nested rows. Stacks do not count. -/
inductive Inside {α : Type} : Rendered α → Nat → Rendered α → Prop
  | here (tree : Rendered α) : Inside tree 0 tree
  | stack {children : List (Rendered α)} {child part : Rendered α} {d : Nat} :
      child ∈ children → Inside child d part → Inside (.row .stack children) d part
  | row {children : List (Rendered α)} {child part : Rendered α} {d : Nat} :
      child ∈ children → Inside child d part → Inside (.row .row children) (d + 1) part

/-- The lines that are written for a part itself. -/
def ownLines (depth : Nat) : Rendered String → List Line
  | .row .. => []
  | .unit _ output => unitLines depth output
  | .placeholder p => placeholderLines depth p

/-- The lines of a unit or placeholder come from it, and from its depth. -/
theorem source_of_mem_ownLines {depth : Nat} {part : Rendered String} {line : Line}
    (h : line ∈ ownLines depth part) :
    line.depth = depth ∧
      ((∃ component output, part = .unit component output ∧ line.source = .unit) ∨
        ∃ p, part = .placeholder p ∧ line.source = .placeholder) := by
  cases part with
  | row layout children => cases h
  | unit component output =>
    obtain ⟨text, -, rfl⟩ := List.mem_map.mp h
    exact ⟨rfl, .inl ⟨component, output, rfl, rfl⟩⟩
  | placeholder p =>
    obtain ⟨text, -, rfl⟩ := List.mem_map.mp h
    exact ⟨rfl, .inr ⟨p, rfl, rfl⟩⟩

/-- **The lines for units and placeholders** are those of the parts of the tree, each written
with the number of rows that the part is inside of. -/
theorem mem_written_iff (depth : Nat) {tree : Rendered String} {line : Line}
    (hsource : line.source = .unit ∨ line.source = .placeholder) :
    line ∈ written depth tree ↔
      ∃ d part, Inside tree d part ∧ line ∈ ownLines (depth + d) part := by
  -- the induction is on the tree; a unit or placeholder has its own lines and no other parts
  induction tree using Rendered.children_induction generalizing depth with
  | row layout children ih =>
    cases layout with
    | stack =>
      rw [written, writtenStack_eq_flatMap, List.mem_flatMap]
      constructor
      · rintro ⟨child, hchild, hline⟩
        rcases List.mem_append.mp hline with hline | hline
        · obtain ⟨d, part, hpart, hown⟩ := (ih child hchild depth).mp hline
          exact ⟨d, part, .stack hchild hpart, hown⟩
        · -- the blank line after a child belongs to no part
          rw [List.mem_singleton.mp hline] at hsource
          simp at hsource
      · rintro ⟨d, part, hpart, hown⟩
        cases hpart with
        | here => cases hown
        | @stack _ child _ _ hchild hpart =>
          have hline := (ih child hchild depth).mpr ⟨d, part, hpart, hown⟩
          exact ⟨child, hchild, List.mem_append_left _ hline⟩
    | row =>
      rw [written, writtenRow_eq_flatMap, List.mem_cons, List.mem_flatMap]
      constructor
      · rintro (rfl | ⟨child, hchild, hline⟩)
        · -- the line of the row itself belongs to no part either
          simp at hsource
        · obtain ⟨d, part, hpart, hown⟩ := (ih child hchild (depth + 1)).mp hline
          -- in a row the children stand one level deeper than the row
          rw [Nat.add_assoc, Nat.add_comm 1 d] at hown
          exact ⟨d + 1, part, .row hchild hpart, hown⟩
      · rintro ⟨d, part, hpart, hown⟩
        cases hpart with
        | here => cases hown
        | @row _ child _ d hchild hpart =>
          rw [Nat.add_comm d 1, ← Nat.add_assoc] at hown
          exact .inr ⟨child, hchild, (ih child hchild (depth + 1)).mpr ⟨d, part, hpart, hown⟩⟩
  | unit component output =>
    rw [written]
    constructor
    · exact fun hline => ⟨0, _, .here _, hline⟩
    · rintro ⟨d, part, ⟨⟩, hown⟩
      exact hown
  | placeholder p =>
    rw [written]
    constructor
    · exact fun hline => ⟨0, _, .here _, hline⟩
    · rintro ⟨d, part, ⟨⟩, hown⟩
      exact hown

/-- Every line of the output of a unit is indented by its depth. -/
theorem isIndented_of_mem_unitLines {depth : Nat} {output : String} {line : Line}
    (h : line ∈ unitLines depth output) : IsIndented depth line.text := by
  obtain ⟨text, -, rfl⟩ := List.mem_map.mp h
  exact isIndented_append depth text

/-- Of a placeholder the lines after the first one are written as they are. -/
theorem forall_placeholderLines_iff (depth : Nat) (p : Placeholder) :
    (∀ line ∈ placeholderLines depth p, IsIndented depth line.text) ↔
      ∀ further ∈ (Text.pieces '\n' p.text.toList).tail, IsIndented depth further := by
  obtain ⟨first, further, hpieces, hlines⟩ := exists_placeholderLines_eq depth p
  rw [hlines, hpieces, List.forall_mem_map, List.forall_mem_cons, List.tail_cons]
  exact and_iff_right (isIndented_append depth first)

/-! ## What is indented -/

/-- A line with a source stands on its own in the print, for a unit or placeholder inside the tree.
-/
theorem mem_written_zero_iff {tree : Rendered String} {line : Line}
    (hsource : line.source = .unit ∨ line.source = .placeholder) :
    line ∈ written 0 tree ↔ ∃ d part, Inside tree d part ∧ line ∈ ownLines d part := by
  simpa only [Nat.zero_add] using mem_written_iff 0 hsource

/-- Outputs of units are printed with their indentation on each line. -/
theorem printsIndented_unit (tree : Rendered String) : PrintsIndented .unit tree := by
  rw [printsIndented_iff_written]
  intro line hline hsource
  obtain ⟨d, part, -, hown⟩ := (mem_written_zero_iff (.inl hsource)).mp hline
  rcases source_of_mem_ownLines hown with ⟨rfl, ⟨component, output, rfl, -⟩ | ⟨p, -, hp⟩⟩
  · exact isIndented_of_mem_unitLines hown
  · rw [hsource] at hp
    cases hp

/-- **Placeholders are printed indented** as long as their texts have no further lines, or these are
indented already. -/
theorem printsIndented_placeholder_iff (tree : Rendered String) :
    PrintsIndented .placeholder tree ↔
      ∀ d p, Inside tree d (.placeholder p) →
        ∀ further ∈ (Text.pieces '\n' p.text.toList).tail, IsIndented d further := by
  rw [printsIndented_iff_written]
  constructor
  · intro h d p hp
    refine (forall_placeholderLines_iff d p).mp fun line hline => ?_
    have hown : line ∈ ownLines d (.placeholder p) := hline
    obtain ⟨rfl, ⟨_, _, ⟨⟩, -⟩ | ⟨_, -, hsource⟩⟩ := source_of_mem_ownLines hown
    exact h line ((mem_written_zero_iff (.inr hsource)).mpr ⟨_, _, hp, hown⟩) hsource
  · intro h line hline hsource
    obtain ⟨d, part, hpart, hown⟩ := (mem_written_zero_iff (.inr hsource)).mp hline
    rcases source_of_mem_ownLines hown with ⟨rfl, ⟨_, _, -, hunit⟩ | ⟨p, rfl, -⟩⟩
    · rw [hsource] at hunit
      cases hunit
    · exact (forall_placeholderLines_iff _ p).mpr (h _ p hpart) line hown

/-- **The lines of a printed tree.** The printed text has the lines that are written for the
tree, up to blanks at the end, and those for units and placeholders are the lines of its parts.
All lines of units are indented by the rows around them, whatever the units put out. All lines of
placeholders are if and only if each line of their texts after the first one happens to be blank
or to begin with the spaces for the rows around it. -/
theorem print_lines (tree : Rendered String) :
    Shows (print tree) (written 0 tree) ∧
    (∀ line, line.source = .unit ∨ line.source = .placeholder →
      (line ∈ written 0 tree ↔ ∃ d part, Inside tree d part ∧ line ∈ ownLines d part)) ∧
    PrintsIndented .unit tree ∧
    (PrintsIndented .placeholder tree ↔
      ∀ d p, Inside tree d (.placeholder p) →
        ∀ further ∈ (Text.pieces '\n' p.text.toList).tail, IsIndented d further) :=
  ⟨shows_print tree, fun _ => mem_written_zero_iff, printsIndented_unit tree,
    printsIndented_placeholder_iff tree⟩

/-! ### A type of two lines -/

/-- A node of a type with a line end in its name. -/
def ghost : Json := .object [("type", .string "a\nb")]

/-- The second line of the placeholder stands at the left margin, although it is in a row. -/
theorem not_printsIndented_ghost :
    ¬ PrintsIndented .placeholder
      (({ units := plainText } : Renderer String).renderValue (.array [.array [ghost]])).value := by
  have htree : (({ units := plainText } : Renderer String).renderValue
      (.array [.array [ghost]])).value =
        .row .stack [.row .row [.placeholder (.unknown "a\nb")]] := rfl
  rw [htree]
  intro h
  have hindented : IsIndented 1 ['b'] := by
    refine h 2 ⟨1, .placeholder, ['b']⟩ ['b'] (by rfl) rfl ?_
    rw [pieces_print]
    rfl
  rcases hindented with hblank | hspaces
  · cases hblank
  · revert hspaces
    decide

/-! ## Names without line feeds -/

/-- The names in the text of a placeholder. -/
def Placeholder.names : Placeholder → List String
  | .unknown component => [component]
  | .missingField component field => [component, field]
  | .notANode _ => []

/-- A text has no line feeds but those of the names in it. -/
theorem newline_not_mem_text {p : Placeholder} (h : ∀ name ∈ p.names, '\n' ∉ name.toList) :
    '\n' ∉ p.text.toList := by
  cases p with
  | unknown component =>
    have hcomponent : '\n' ∉ component.toList := h component (List.mem_singleton_self _)
    have htext : (Placeholder.unknown component).text = "Unknown: " ++ component := rfl
    rw [htext, String.toList_append, List.mem_append, not_or]
    exact ⟨by decide, hcomponent⟩
  | missingField component field =>
    have hcomponent : '\n' ∉ component.toList := h component (List.mem_cons_self ..)
    have hfield : '\n' ∉ field.toList :=
      h field (List.mem_cons_of_mem _ (List.mem_singleton_self _))
    have htext : (Placeholder.missingField component field).text =
        "Error: Missing required data for " ++ component ++ " (" ++ field ++ ")" := rfl
    simp only [htext, String.toList_append, List.mem_append, not_or]
    exact ⟨⟨⟨⟨by decide, hcomponent⟩, by decide⟩, hfield⟩, by decide⟩
  | notANode found => cases found <;> decide

/-- Nothing is inside a tree without a frame but the tree itself. -/
theorem Inside.eq_of_frame? {α : Type} {tree part : Rendered α} {d : Nat}
    (h : Inside tree d part) (hframe : tree.frame? = none) : part = tree := by
  cases h with
  | here => rfl
  | stack | row => cases hframe

namespace Renderer

variable {α : Type} (r : Renderer α)

/-- A placeholder below the top stands for a value that is no component, or for a reachable
node. -/
theorem placeholder_inside_item {v : Json} {d : Nat} {p : Placeholder}
    (h : Inside (r.item v).value d (.placeholder p)) :
    (∃ kind, p = .notANode kind) ∨
      ∃ q n, Reachable v q n ∧ (r.node n).value = .placeholder p := by
  induction v using array_induction generalizing d with
  | array items ih =>
    rw [value_item_array] at h
    cases h with
    | row hchild hpart =>
      obtain ⟨item, hitem, rfl⟩ := List.mem_map.mp hchild
      exact (ih item hitem hpart).imp_right (exists_reachable_of_mem hitem)
  | other v hne =>
    -- what is no array is a node, or the placeholder for something else
    have hvalue := h.eq_of_frame? (frame?_item_of_not_array r hne)
    rcases shape_cases v with ⟨items, rfl⟩ | ⟨n, hview⟩ | hother
    · exact absurd rfl (hne items)
    · rw [item_of_view? r hview] at hvalue
      exact .inr ⟨[], n, .top (elementAt?_nil v) hview, hvalue.symm⟩
    · rw [item_of_other r hother, Traced.value_pure, Rendered.placeholder.injEq] at hvalue
      exact .inl ⟨v.kind, hvalue⟩

/-- A placeholder in a rendered tree stands for a value that is no node, or for a reachable node. -/
theorem placeholder_inside_renderValue {v : Json} {d : Nat} {p : Placeholder}
    (h : Inside (r.renderValue v).value d (.placeholder p)) :
    (∃ kind, p = .notANode kind) ∨
      ∃ q n, Reachable v q n ∧ (r.node n).value = .placeholder p := by
  cases v using array_cases with
  | array items =>
    rw [value_renderValue_array] at h
    cases h with
    | stack hchild hpart =>
      obtain ⟨item, hitem, rfl⟩ := List.mem_map.mp hchild
      exact (r.placeholder_inside_item hpart).imp_right (exists_reachable_of_mem hitem)
  | other v hne =>
    rw [renderValue_of_not_array r hne] at h
    exact r.placeholder_inside_item h

/-- The placeholder of a node names its type and a field that it requires. -/
theorem names_of_value_node {n : View} {p : Placeholder} (h : (r.node n).value = .placeholder p) :
    ∀ name ∈ p.names, name = n.kind ∨ name ∈ r.requiredFields n.kind := by
  rw [value_node_eq] at h
  cases hfield : r.absentField? n with
  | some field =>
    rw [hfield, Rendered.placeholder.injEq] at h
    subst h
    have hrequired : field ∈ r.requiredFields n.kind := List.mem_of_find?_eq_some hfield
    simp [Placeholder.names, hrequired]
  | none =>
    rw [hfield] at h
    cases hunit : r.units.get? n.kind with
    | some unit => rw [hunit] at h; cases h
    | none =>
      rw [hunit, Rendered.placeholder.injEq] at h
      subst h
      simp [Placeholder.names]

end Renderer

/-- **Everything is indented** if neither the types of the reachable nodes nor the fields that are
required of them have line feeds in their names. -/
theorem printsIndented_renderValue (r : Renderer String) {v : Json}
    (htypes : ∀ q n, Reachable v q n → '\n' ∉ n.kind.toList)
    (hfields : ∀ q n, Reachable v q n → ∀ field ∈ r.requiredFields n.kind, '\n' ∉ field.toList) :
    PrintsIndented .unit (r.renderValue v).value ∧
    PrintsIndented .placeholder (r.renderValue v).value := by
  refine ⟨printsIndented_unit _, (printsIndented_placeholder_iff _).mpr fun d p hp => ?_⟩
  have hnames : ∀ name ∈ p.names, '\n' ∉ name.toList := by
    intro name hname
    rcases r.placeholder_inside_renderValue hp with ⟨kind, rfl⟩ | ⟨q, n, hn, hvalue⟩
    · cases hname
    · rcases r.names_of_value_node hvalue name hname with rfl | hfield
      · exact htypes q n hn
      · exact hfields q n hn name hfield
  -- the text is one line only
  rw [Text.pieces_of_not_mem (newline_not_mem_text hnames)]
  exact List.forall_mem_nil _

end Render

end Mosaic
