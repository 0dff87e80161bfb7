import Mosaic.Proofs.Render.Layout

/-!
# What a printed tree says

Printing rewrites white space in many places: the outputs of units are split into lines and put
together again, everything in a row is indented, stacks are spaced, and the blanks at the end are
dropped. None of this touches what is said: apart from blank lines and the blanks around a line, a
printed tree has the lines of its units and placeholders from left to right, and one heading for
each row.

* `Text.nonblank`: the lines that say something, without the blanks around them.
* `Text.nonblank_lines`: for this it does not matter how a carriage return at a line end is read.
* `content`: what a tree says, without indentation or spacing.
* `nonblank_written`: the lines that are written for a tree say this, at any depth.
* `nonblank_lines_print`: so do the lines of the printed text.
-/

namespace Mosaic

namespace Text

/-! ## Blanks on both sides -/

def trim (text : List Char) : List Char := trimStart (trimEnd text)

theorem trim_of_all_isBlank {text : List Char} (h : text.all isBlank) : trim text = [] := by
  rw [trim, trimEnd_eq_nil_iff.mpr h]
  rfl

/-- Blanks before a text do not count. -/
theorem trim_append_of_all_isBlank {blanks : List Char} (h : blanks.all isBlank)
    (text : List Char) : trim (blanks ++ text) = trim text := by
  have hstart : ∀ rest, trimStart (blanks ++ rest) = trimStart rest := by
    intro rest
    rw [List.all_eq_true] at h
    exact List.dropWhile_append_of_pos h
  rw [trim, trimEnd_append]
  split
  · next htext => -- nothing is left of either
    rw [trim, trimEnd_eq_nil_iff.mpr h, trimEnd_eq_nil_iff.mpr htext]
  · exact hstart (trimEnd text)

/-- What stands before a text makes no difference to the blanks at its end. -/
theorem trimEnd_append_congr {text other : List Char} (h : trimEnd text = trimEnd other)
    (before : List Char) : trimEnd (before ++ text) = trimEnd (before ++ other) := by
  have hblank : text.all isBlank = other.all isBlank := by
    rw [Bool.eq_iff_iff, ← trimEnd_eq_nil_iff, ← trimEnd_eq_nil_iff, h]
  rw [trimEnd_append, trimEnd_append, hblank, h]

/-! ## Lines that say something -/

/-- The lines that are not blank, without the blanks around them. -/
def nonblank (texts : List (List Char)) : List (List Char) :=
  (texts.map trim).filter fun text => !text.isEmpty

theorem nonblank_append (texts others : List (List Char)) :
    nonblank (texts ++ others) = nonblank texts ++ nonblank others := by
  simp [nonblank]

theorem nonblank_cons (text : List Char) (rest : List (List Char)) :
    nonblank (text :: rest) = nonblank [text] ++ nonblank rest := nonblank_append [text] rest

theorem nonblank_flatMap {β : Type} (f : β → List (List Char)) (xs : List β) :
    nonblank (xs.flatMap f) = xs.flatMap fun x => nonblank (f x) := by
  rw [nonblank, List.map_flatMap, List.filter_flatMap]
  rfl

/-- Blanks at the ends of lines do not count. -/
theorem nonblank_congr {texts others : List (List Char)}
    (h : texts.map trimEnd = others.map trimEnd) : nonblank texts = nonblank others := by
  have htrim : ∀ lines : List (List Char), lines.map trim = (lines.map trimEnd).map trimStart := by
    intro lines
    rw [List.map_map]
    rfl
  rw [nonblank, nonblank, htrim, htrim, h]

theorem nonblank_of_all_isBlank {texts : List (List Char)} (h : texts.all (·.all isBlank)) :
    nonblank texts = [] := by
  rw [List.all_eq_true] at h
  rw [nonblank, List.filter_eq_nil_iff, List.forall_mem_map]
  intro text htext
  rw [trim_of_all_isBlank (h text htext)]
  simp

/-- Dropping the blanks at the end of some lines keeps what they say. -/
theorem nonblank_trimmed (texts : List (List Char)) :
    nonblank (trimmed texts) = nonblank texts := by
  induction texts with
  | nil => rfl
  | cons text rest ih =>
    rw [trimmed]
    split
    · next hrest => -- only blank lines follow
      rw [nonblank_cons text rest, nonblank_of_all_isBlank hrest, List.append_nil]
      refine nonblank_congr ?_
      simp only [List.map_cons, List.map_nil, List.cons.injEq, and_true]
      exact List.rdropWhile_idempotent isBlank text
    · rw [nonblank_cons, ih, ← nonblank_cons]

/-- A text is divided into lines and into pieces between line feeds alike, up to blanks at the
ends of lines and an empty piece at the end. -/
theorem map_trimEnd_pieces (text : List Char) :
    (pieces '\n' text).map trimEnd = (lines text).map trimEnd ∨
      (pieces '\n' text).map trimEnd = (lines text).map trimEnd ++ [[]] := by
  induction text using lines.induct with
  | case1 => exact .inr rfl
  | case2 rest ih =>
    rw [lines, pieces, if_pos rfl, List.map_cons, List.map_cons]
    exact ih.imp (congrArg _) (congrArg _)
  | case3 rest ih =>
    -- the carriage return makes a blank piece and an empty line
    have hpieces : pieces '\n' ('\r' :: '\n' :: rest) = ['\r'] :: pieces '\n' rest := by
      simp [pieces]
    have hblank : trimEnd ['\r'] = trimEnd [] := by decide
    rw [lines, hpieces, List.map_cons, List.map_cons, hblank]
    exact ih.imp (congrArg _) (congrArg _)
  | case4 c rest hfeed hreturn hlines ih =>
    obtain ⟨piece, others, hpieces⟩ := List.exists_cons_of_ne_nil (pieces_ne_nil '\n' rest)
    -- the rest is empty, so that there is one piece
    have hlast : trimEnd piece = [] ∧ others = [] := by
      rw [hlines, hpieces] at ih
      simpa using ih
    have hpiece : trimEnd piece = trimEnd [] := hlast.1
    rw [lines_cons hfeed hreturn, hlines, pieces, if_neg hfeed, hpieces, hlast.2]
    exact .inl (congrArg (fun text => [text]) (trimEnd_append_congr hpiece [c]))
  | case5 c rest hfeed hreturn first more hlines ih =>
    obtain ⟨piece, others, hpieces⟩ := List.exists_cons_of_ne_nil (pieces_ne_nil '\n' rest)
    rw [hlines, hpieces] at ih
    rw [lines_cons hfeed hreturn, hlines, pieces, if_neg hfeed, hpieces]
    -- the character goes to the front of the first piece and of the first line
    refine ih.imp (fun h => ?_) fun h => ?_
    all_goals
      simp only [List.map_cons, List.cons_append, List.cons.injEq] at h ⊢
      exact ⟨trimEnd_append_congr h.1 [c], h.2⟩

theorem nonblank_lines (text : List Char) :
    nonblank (lines text) = nonblank (pieces '\n' text) := by
  rcases map_trimEnd_pieces text with h | h
  · exact nonblank_congr h.symm
  · -- the empty piece says nothing
    have hempty : nonblank (lines text) = nonblank (lines text ++ [[]]) := by
      rw [nonblank_append]
      exact (List.append_nil _).symm
    rw [hempty]
    exact nonblank_congr (by rw [h, List.map_append]; rfl)

end Text

namespace Render

/-! ## What a tree says -/

mutual

/-- The lines of the units and placeholders of a tree from left to right, with a heading before
those of a row. -/
def content : Rendered String → List (List Char)
  | .row .stack children => contents children
  | .row .row children => "[row]".toList :: contents children
  | .unit _ output => Text.nonblank (Text.lines output.toList)
  | .placeholder p => Text.nonblank (Text.lines p.text.toList)

def contents : List (Rendered String) → List (List Char)
  | [] => []
  | child :: rest => content child ++ contents rest

end

theorem contents_eq_flatMap (children : List (Rendered String)) :
    contents children = children.flatMap content := by
  induction children with
  | nil => rw [contents, List.flatMap_nil]
  | cons child rest ih => rw [contents, ih, List.flatMap_cons]

/-! ## What is printed -/

section

variable (depth : Nat)

/-- Indentation says nothing. -/
theorem trim_indentation_append (text : List Char) :
    Text.trim (indentation depth ++ text) = Text.trim text :=
  Text.trim_append_of_all_isBlank (all_isBlank_indentation depth) text

theorem nonblank_unitLines (output : String) :
    Text.nonblank ((unitLines depth output).map Line.text) =
      Text.nonblank (Text.lines output.toList) := by
  have htrim : ((unitLines depth output).map Line.text).map Text.trim =
      (Text.lines output.toList).map Text.trim := by
    rw [unitLines, List.map_map, List.map_map]
    exact List.map_congr_left fun line _ => trim_indentation_append depth line
  rw [Text.nonblank, htrim, Text.nonblank]

/-- Only the first line of a placeholder is indented, and that makes no difference. -/
theorem nonblank_placeholderLines (p : Placeholder) :
    Text.nonblank ((placeholderLines depth p).map Line.text) =
      Text.nonblank (Text.lines p.text.toList) := by
  obtain ⟨first, further, hpieces, hlines⟩ := exists_placeholderLines_eq depth p
  have htexts : (placeholderLines depth p).map Line.text =
      (indentation depth ++ first) :: further := by
    rw [hlines, List.map_map]
    exact List.map_id _
  rw [Text.nonblank_lines, hpieces, htexts, Text.nonblank, List.map_cons,
    trim_indentation_append depth first]
  rfl

end

/-- **What is written for a tree** inside nested rows is what it says. -/
theorem nonblank_written (depth : Nat) (tree : Rendered String) :
    Text.nonblank ((written depth tree).map Line.text) = content tree := by
  -- the induction is on the tree, at every depth, since rows are one deeper inside
  induction tree using Rendered.children_induction generalizing depth with
  | row layout children ih =>
    cases layout with
    | stack =>
      rw [written, writtenStack_eq_flatMap, content, contents_eq_flatMap, List.map_flatMap,
        Text.nonblank_flatMap]
      refine List.flatMap_congr fun child hchild => ?_
      -- the separator is blank
      have hseparator : Text.nonblank [[]] = [] := rfl
      rw [List.map_append, Text.nonblank_append, ih child hchild depth, List.map_singleton,
        hseparator, List.append_nil]
    | row =>
      have hheading : Text.nonblank [indentation depth ++ "[row]".toList] = ["[row]".toList] := by
        rw [Text.nonblank, List.map_singleton, trim_indentation_append]
        decide
      rw [written, writtenRow_eq_flatMap, content, contents_eq_flatMap, List.map_cons,
        Text.nonblank_cons, hheading, List.map_flatMap, Text.nonblank_flatMap]
      exact congrArg _ (List.flatMap_congr fun child hchild => ih child hchild (depth + 1))
  | unit component output => rw [written, nonblank_unitLines, content]
  | placeholder p => rw [written, nonblank_placeholderLines, content]

/-- **Printing keeps what a tree says.** Of the lines of a printed tree, those that are not blank
are the lines of its units and placeholders that are not blank, from left to right, and a heading
at the start of each row, all without the blanks around them: no line is lost, split, merged with
another, repeated or moved. -/
theorem nonblank_lines_print (tree : Rendered String) :
    Text.nonblank (Text.lines (print tree).toList) = content tree := by
  rw [Text.nonblank_lines, pieces_print, Text.nonblank_trimmed, nonblank_written]

example :
    content (.row .stack [.unit "markdown" " up \r\n\n12%\n", .row .row [],
      .row .row [.unit "card" "", .placeholder (.unknown "a\nb")]]) =
        ["up", "12%", "[row]", "[row]", "Unknown: a", "b"].map String.toList := by decide

end Render

end Mosaic
