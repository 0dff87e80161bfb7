import Mosaic.Proofs.Render.Plain

/-!
# Printing what has been printed

The content of a markdown node may be a node, which is printed, and the text is the output of the
markdown node, which is printed again. A second printing divides the text into the lines that it
was put together from, so that it comes out as it was. There is one exception: a carriage return
at the end of a line is taken for a part of the line end, and each printing drops one. So the
statements are about texts without carriage returns.

* `Text.trimEnd_joined_lines`: lines that are joined again.
* `print_unit_print`: a second printing changes nothing.
* `WrappedIn`, `print_nested`: markdown nodes around a node are not seen.
-/

namespace Mosaic

namespace Text

/-- Without carriage returns, the lines of a text give the text again, and the last one is ended if
it was not. -/
theorem joined_lines {text : List Char} (h : '\r' ∉ text) :
    joined (lines text) = text ∨ joined (lines text) = text ++ ['\n'] := by
  induction text using lines.induct with
  | case1 => exact .inl rfl
  | case2 rest ih =>
    rw [lines, joined_cons, List.nil_append]
    exact (ih fun hmem => h (List.mem_cons_of_mem _ hmem)).imp (congrArg _) (congrArg _)
  | case3 rest ih => exact absurd (List.mem_cons_self ..) h
  | case4 c rest hfeed hreturn hlines ih =>
    have hrest := ih fun hmem => h (List.mem_cons_of_mem _ hmem)
    rw [hlines] at hrest
    rw [lines_cons hfeed hreturn, hlines]
    -- nothing is left behind the character
    rcases hrest with hrest | hrest
    · rw [← hrest]
      exact .inr rfl
    · exact absurd hrest.symm (List.append_ne_nil_of_right_ne_nil _ (List.cons_ne_nil _ _))
  | case5 c rest hfeed hreturn first others hlines ih =>
    have hrest := ih fun hmem => h (List.mem_cons_of_mem _ hmem)
    rw [hlines, joined_cons] at hrest
    rw [lines_cons hfeed hreturn, hlines, joined_cons, List.cons_append]
    exact hrest.imp (congrArg _) (congrArg _)

theorem trimEnd_joined_lines {text : List Char} (h : '\r' ∉ text) :
    trimEnd (joined (lines text)) = trimEnd text := by
  rcases joined_lines h with hlines | hlines
  · rw [hlines]
  · rw [hlines, trimEnd_append]
    rfl

end Text

namespace Render

open Mosaic.Composition

/-- **A second printing changes nothing.** -/
theorem print_unit_print {tree : Rendered String} (h : tree.IsPlain) (component : String) :
    print (.unit component (print tree)) = print tree := by
  -- no blanks are left to be dropped
  have htrimmed : Text.trimEnd (print tree).toList = (print tree).toList := by
    rw [print, String.toList_ofList]
    exact List.rdropWhile_idempotent Text.isBlank _
  rw [print_unit, Text.trimEnd_joined_lines (isPlain_print h), htrimmed, String.ofList_toList]

/-! ## Markdown nodes around a node -/

/-- `WrappedIn v k w`: the value `w` is the value `v` inside `k` markdown nodes, each of which has
the next one as its content. -/
inductive WrappedIn (v : Json) : Nat → Json → Prop
  | bare : WrappedIn v 0 v
  | wrap {k : Nat} {inner outer : Json} {n : View} :
      WrappedIn v k inner → view? outer = some n → n.kind = "markdown" →
      n.entries.lookup "content" = some inner → WrappedIn v (k + 1) outer

/-- A markdown node puts out what is printed for a node that is its content. -/
theorem value_renderValue_markdown (sink : EventSink) {inner outer : Json} {n : View}
    (hview : view? outer = some n) (hkind : n.kind = "markdown")
    (hcontent : n.entries.lookup "content" = some inner) (hinner : isNode inner = true) :
    ((textRenderer sink).renderValue outer).value =
      .unit "markdown" (print ((textRenderer sink).renderValue inner).value) := by
  have hunit : (textRenderer sink).units.get? n.kind = some (textUnit markdownText) := by
    rw [hkind]
    rfl
  have htext : (textRenderer sink).contentText inner =
      print ((textRenderer sink).renderValue inner).value := by
    cases inner with
    | object members => exact if_pos hinner
    | _ => cases hinner
  rw [(Renderer.putsOut_of_unit hview rfl hunit).tree, Renderer.markdownText_props, hcontent,
    Option.map_some, Option.getD_some, htext, hkind]

/-- What is wrapped any number of times is a node, has no carriage returns and is printed like the
node in the middle. -/
theorem print_wrappedIn (sink : EventSink) {v : Json} (hnode : isNode v = true) (hplain : v.IsPlain)
    {k : Nat} {w : Json} (h : WrappedIn v k w) :
    isNode w = true ∧ ((textRenderer sink).renderValue w).value.IsPlain ∧
      print ((textRenderer sink).renderValue w).value =
        print ((textRenderer sink).renderValue v).value := by
  induction h with
  | bare =>
    obtain ⟨n, hview⟩ := Option.isSome_iff_exists.mp ((isNode_iff_view? v).symm.trans hnode)
    obtain ⟨hkind, hentries⟩ := isPlain_of_view? hplain hview
    refine ⟨hnode, ?_, rfl⟩
    rw [Renderer.renderValue_of_not_array _ (ne_array_of_view? hview),
      Renderer.item_of_view? _ hview]
    exact isPlain_node sink n hkind hentries
  | wrap _ hview hkind hcontent ih =>
    obtain ⟨hinner, htree, hprint⟩ := ih
    rw [value_renderValue_markdown sink hview hkind hcontent hinner]
    refine ⟨?_, isPlain_of_ownText? rfl (isPlain_print htree), ?_⟩
    · rw [isNode_iff_view?, hview, Option.isSome_some]
    · -- the tree inside is printed twice
      rw [print_unit_print htree, hprint]

/-- **Printing is stable under nesting.** What is printed for a tree without carriage returns is
printed the same when a unit puts it out. So markdown nodes around a node, however many, make no
difference to what is printed, if no string in the node has a carriage return. -/
theorem print_nested :
    (∀ (tree : Rendered String) (component : String), tree.IsPlain →
      print (.unit component (print tree)) = print tree) ∧
    ∀ (sink : EventSink) (v : Json), isNode v = true → v.IsPlain →
      ∀ (k : Nat) (w : Json), WrappedIn v k w →
        print ((textRenderer sink).renderValue w).value =
          print ((textRenderer sink).renderValue v).value := by
  constructor
  · intro tree component htree
    exact print_unit_print htree component
  · intro sink v hnode hplain k w hw
    exact (print_wrappedIn sink hnode hplain hw).2.2

/-! ### A note in two covers

The note ends with blank lines, and the outer cover has a title with a carriage return, which no
markdown node shows. -/

def noteTree : Rendered String :=
  .row .stack [.unit "card" "# Rates \n\n", .row .row [.placeholder (.unknown "chart\nof rates")]]

def note : Json :=
  .object [("type", .string "card"), ("data", .object [
    ("title", .string "Rates \n"),
    ("actions", .array [
      .object [("a\rb", .number (.int 1))], .object [("type", .string "chart")]])])]

def noteCover (title : String) (content : Json) : Json :=
  .object [("type", .string "markdown"),
    ("data", .object [("title", .string title), ("content", content)])]

theorem print_nested_note :
    noteTree.IsPlain ∧ isNode note = true ∧ note.IsPlain ∧
    WrappedIn note 2 (noteCover "\r\n" (noteCover "" note)) ∧
    print (.unit "frame" (print noteTree)) = "# Rates \n\n\n[row]\n  Unknown: chart\nof rates" ∧
    print ((textRenderer .disconnected).renderValue (noteCover "\r\n" (noteCover "" note))).value =
      "# Rates \n\n[\x7b\"a\\rb\":1\x7d] [Unknown: chart]" := by
  have htree : noteTree.IsPlain := by
    refine isPlain_row ?_
    simp only [List.forall_mem_cons]
    refine ⟨isPlain_of_ownText? rfl (by decide), isPlain_row ?_, List.forall_mem_nil _⟩
    rw [List.forall_mem_singleton]
    exact isPlain_of_ownText? rfl (by decide)
  have hplain : note.IsPlain := by
    have hnumber : (Json.number (.int 1)).IsPlain := by rintro _ ⟨⟩
    simp [note, Json.isPlain_object_iff, Json.isPlain_array_iff, Json.isPlain_string_iff, hnumber]
    decide
  -- the note is wrapped twice, once without text around it and once with a line end
  have hinner : WrappedIn note 1 (noteCover "" note) := .wrap .bare rfl rfl rfl
  have hwrapped : WrappedIn note 2 (noteCover "\r\n" (noteCover "" note)) :=
    .wrap hinner rfl rfl rfl
  obtain ⟨hstable, hnested⟩ := print_nested
  refine ⟨htree, rfl, hplain, hwrapped, ?_, ?_⟩
  · rw [hstable noteTree "frame" htree]
    decide
  · rw [hnested .disconnected note rfl hplain 2 _ hwrapped]
    decide

/-- A carriage return more at the end of a line, and each printing drops one. -/
example : print (.unit "card" "a\r\r\nb") = "a\r\nb" ∧
    print (.unit "frame" (print (.unit "card" "a\r\r\nb"))) = "a\nb" := by decide

end Render

end Mosaic
