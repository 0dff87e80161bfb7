import Mosaic.Proofs.Json.Visible
import Mosaic.Proofs.Render.Fields

/-!
# Texts without carriage returns

Which texts can be printed again and again is a matter of carriage returns. The units for plain
text put none out that were not given to them, and within JSON they are escaped. So a value whose
strings have none is rendered to a tree without any. Keys do not matter, as they are printed within
JSON only.

* `Text.IsPlain`, `Json.IsPlain`, `Rendered.IsPlain`: no text in it has a carriage return.
* `mem_treeChars`: what is printed for a tree comes from the layout or from its own texts.
* `isPlain_textBy`, `isPlain_contentText`: the texts of values in the data of a node.
* `isPlain_cardText`, `isPlain_markdownText`, `isPlain_suggestionsText`: the three units.
* `isPlain_node`: the tree of a node.
-/

namespace Mosaic

namespace Text

/-- A line has no characters but those of its text. -/
theorem mem_of_mem_lines {text line : List Char} (hline : line ∈ lines text) {c : Char}
    (hc : c ∈ line) : c ∈ text := by
  -- the cases are those of the reader of lines: a line end of one or two characters, or more text
  induction text using lines.induct generalizing line with
  | case1 => cases hline
  | case2 rest ih =>
    rw [lines, List.mem_cons] at hline
    rcases hline with rfl | hline
    · cases hc
    · exact List.mem_cons_of_mem _ (ih hline hc)
  | case3 rest ih =>
    rw [lines, List.mem_cons] at hline
    rcases hline with rfl | hline
    · cases hc
    · exact List.mem_cons_of_mem _ (List.mem_cons_of_mem _ (ih hline hc))
  | case4 d rest hfeed hreturn hlines ih =>
    rw [lines_cons hfeed hreturn, hlines, List.mem_singleton] at hline
    rw [hline, List.mem_singleton] at hc
    rw [hc]
    exact List.mem_cons_self ..
  | case5 d rest hfeed hreturn first others hlines ih =>
    rw [lines_cons hfeed hreturn, hlines, List.mem_cons] at hline
    rcases hline with rfl | hline
    · rcases List.mem_cons.mp hc with rfl | hc
      · exact List.mem_cons_self ..
      · exact List.mem_cons_of_mem _ (ih (hlines ▸ List.mem_cons_self ..) hc)
    · exact List.mem_cons_of_mem _ (ih (hlines ▸ List.mem_cons_of_mem _ hline) hc)

/-! ## Texts without carriage returns -/

/-- A text is plain if no carriage return is in it. -/
def IsPlain (text : String) : Prop := '\r' ∉ text.toList

instance (text : String) : Decidable (IsPlain text) := inferInstanceAs (Decidable (¬ _))

theorem isPlain_append {text other : String} (h : IsPlain text) (hother : IsPlain other) :
    IsPlain (text ++ other) := by
  rw [IsPlain, String.toList_append, List.mem_append, not_or]
  exact ⟨h, hother⟩

/-- Plain texts with a plain separator between them are a plain text. -/
theorem isPlain_intercalate {separator : String} (hseparator : IsPlain separator)
    {texts : List String} (h : ∀ text ∈ texts, IsPlain text) :
    IsPlain (separator.intercalate texts) := by
  induction texts with
  | nil => exact List.not_mem_nil
  | cons text rest ih =>
    rw [List.forall_mem_cons] at h
    cases rest with
    | nil =>
      rw [String.intercalate_singleton]
      exact h.1
    | cons second rest =>
      rw [String.intercalate_cons_cons]
      exact isPlain_append (isPlain_append h.1 hseparator) (ih h.2)

end Text

/-! ## Values without carriage returns -/

namespace Json

/-- `HasString value text`: the text is a string in the value, at any depth. Keys do not count. -/
inductive HasString : Json → String → Prop
  | here (text : String) : HasString (.string text) text
  | item {items : List Json} {item : Json} {text : String} :
      item ∈ items → HasString item text → HasString (.array items) text
  | member {members : List (String × Json)} {key : String} {value : Json} {text : String} :
      (key, value) ∈ members → HasString value text → HasString (.object members) text

/-- No string in the value has a carriage return. -/
def IsPlain (value : Json) : Prop := ∀ text, value.HasString text → Text.IsPlain text

theorem isPlain_string_iff {text : String} : IsPlain (.string text) ↔ Text.IsPlain text := by
  constructor
  · exact fun h => h text (.here text)
  · rintro h _ ⟨⟩
    exact h

/-- An array is plain if its items are. -/
theorem isPlain_array_iff {items : List Json} :
    IsPlain (.array items) ↔ ∀ item ∈ items, item.IsPlain := by
  constructor
  · exact fun h item hitem text htext => h text (.item hitem htext)
  · rintro h text ⟨⟩
    next item hitem htext => exact h item hitem text htext

/-- An object is plain if the values of its members are, whatever their names. -/
theorem isPlain_object_iff {members : List (String × Json)} :
    IsPlain (.object members) ↔ ∀ member ∈ members, member.2.IsPlain := by
  constructor
  · exact fun h member hmember text htext => h text (.member hmember htext)
  · rintro h text ⟨⟩
    next key value hmember htext => exact h (key, value) hmember text htext

theorem IsPlain.of_lookup {members : List (String × Json)} (h : IsPlain (.object members))
    {key : String} {value : Json} (hvalue : members.lookup key = some value) : value.IsPlain :=
  isPlain_object_iff.mp h (key, value) (mem_of_lookup hvalue)

theorem IsPlain.of_asString? {value : Json} (h : value.IsPlain) {text : String}
    (htext : value.asString? = some text) : Text.IsPlain text := by
  cases value with
  | string own =>
    cases htext
    exact isPlain_string_iff.mp h
  | _ => cases htext

/-- JSON is written without carriage returns, whatever the strings in it. -/
theorem isPlain_compact (value : Json) : Text.IsPlain value.compact := by
  intro hreturn
  rw [compact, String.toList_ofList] at hreturn
  exact absurd (isVisible_of_mem_compactChars value '\r' hreturn) (by decide)

end Json

namespace Composition

/-- The type of a node is one of its strings, and so are those in its data. -/
theorem isPlain_of_view? {value : Json} (h : value.IsPlain) {n : View}
    (hview : view? value = some n) :
    Text.IsPlain n.kind ∧ ∀ entry ∈ n.entries, entry.2.IsPlain := by
  cases value with
  | object members =>
    rw [view?_object, Option.map_eq_some_iff] at hview
    obtain ⟨kind, hkind, rfl⟩ := hview
    constructor
    · -- the type is the string under `type`
      unfold nodeKind? at hkind
      split at hkind
      · next name hname =>
        split at hkind
        · cases hkind
        · cases hkind
          exact (h.of_lookup hname).of_asString? rfl
      · cases hkind
    · -- the data is the object under `data`, or empty
      intro entry hentry
      unfold nodeData? at hentry
      cases hdata : members.lookup "data" with
      | none =>
        rw [hdata] at hentry
        cases hentry
      | some data =>
        rw [hdata] at hentry
        cases data with
        | object entries => exact Json.isPlain_object_iff.mp (h.of_lookup hdata) entry hentry
        | _ => cases hentry
  | _ => cases hview

end Composition

namespace Render

open Mosaic.Composition

/-! ## Trees without carriage returns -/

/-- What a part of a tree has to say itself. -/
def Rendered.ownText? : Rendered String → Option String
  | .row .. => none
  | .unit _ output => some output
  | .placeholder p => some p.text

/-- No output of a unit and no text of a placeholder in the tree has a carriage return. -/
def Rendered.IsPlain (tree : Rendered String) : Prop :=
  ∀ d part text, Inside tree d part → part.ownText? = some text → Text.IsPlain text

/-- A unit or placeholder is plain if its text is. -/
theorem isPlain_of_ownText? {tree : Rendered String} {text : String}
    (hown : tree.ownText? = some text) (h : Text.IsPlain text) : tree.IsPlain := by
  intro d part other hpart hother
  cases hpart with
  | here =>
    rw [hown, Option.some_inj] at hother
    exact hother ▸ h
  | stack | row => cases hown

/-- A row is plain if its children are. -/
theorem isPlain_row {layout : Layout} {children : List (Rendered String)}
    (h : ∀ child ∈ children, child.IsPlain) : Rendered.IsPlain (.row layout children) := by
  intro d part text hpart htext
  cases hpart with
  | here => cases htext
  | stack hchild hpart | row hchild hpart => exact h _ hchild _ part text hpart htext

/-- What is printed comes from the layout or from a unit or a placeholder. -/
theorem mem_treeChars {depth : Nat} {tree : Rendered String} {c : Char}
    (hc : c ∈ treeChars depth tree) :
    c ∈ " [row]\n".toList ∨
      ∃ d part text, Inside tree d part ∧ part.ownText? = some text ∧ c ∈ text.toList := by
  -- indentation and line feeds are among the signs of the layout
  have hspace : ∀ depth, c ∈ indentation depth → c ∈ " [row]\n".toList := by
    intro depth hc
    rw [List.eq_of_mem_replicate hc]
    decide
  have hfeed : c ∈ ['\n'] → c ∈ " [row]\n".toList := by
    intro hc
    rw [List.mem_singleton.mp hc]
    decide
  induction tree using Rendered.children_induction generalizing depth with
  | row layout children ih =>
    cases layout with
    | stack =>
      rw [treeChars, stackChars_eq_flatMap, List.mem_flatMap] at hc
      obtain ⟨child, hchild, hc⟩ := hc
      rcases List.mem_append.mp hc with hc | hc
      · -- the text of a child is the text of the whole, at a greater depth only in a row
        refine (ih child hchild hc).imp_right ?_
        rintro ⟨d, part, text, hpart, htext⟩
        exact ⟨d, part, text, .stack hchild hpart, htext⟩
      · exact .inl (hfeed hc)
    | row =>
      rw [treeChars, rowChars_eq_flatMap, List.mem_append, List.mem_append, List.mem_flatMap] at hc
      rcases hc with (hc | hc) | ⟨child, hchild, hc⟩
      · exact .inl (hspace depth hc)
      · exact .inl (List.mem_cons_of_mem _ hc)
      · refine (ih child hchild hc).imp_right ?_
        rintro ⟨d, part, text, hpart, htext⟩
        exact ⟨d + 1, part, text, .row hchild hpart, htext⟩
  | unit component output =>
    rw [treeChars, blockChars, List.mem_flatMap] at hc
    obtain ⟨line, hline, hc⟩ := hc
    simp only [List.mem_append] at hc
    rcases hc with (hc | hc) | hc
    · exact .inl (hspace depth hc)
    · exact .inr ⟨0, _, output, .here _, rfl, Text.mem_of_mem_lines hline hc⟩
    · exact .inl (hfeed hc)
  | placeholder p =>
    rw [treeChars, List.mem_append, List.mem_append] at hc
    rcases hc with (hc | hc) | hc
    · exact .inl (hspace depth hc)
    · exact .inr ⟨0, _, p.text, .here _, rfl, hc⟩
    · exact .inl (hfeed hc)

/-- **A plain tree is printed as a plain text.** -/
theorem isPlain_print {tree : Rendered String} (h : tree.IsPlain) : Text.IsPlain (print tree) := by
  intro hreturn
  rw [print, String.toList_ofList] at hreturn
  have hlayout : '\r' ∉ " [row]\n".toList := by decide
  rcases mem_treeChars ((Text.trimEnd_isPrefix _).subset hreturn) with
    hc | ⟨d, part, text, hpart, htext, hc⟩
  · exact hlayout hc
  · exact h d part text hpart htext hc

/-! ## Texts of values -/

/-- The text of a plain value is plain. -/
theorem isPlain_scalarText {value : Json} (h : value.IsPlain) :
    Text.IsPlain (scalarText value) := by
  cases value with
  | string text => exact Json.isPlain_string_iff.mp h
  | null => exact List.not_mem_nil
  | _ => exact Json.isPlain_compact _

/-- So is its label. -/
theorem isPlain_ownLabel {value : Json} (h : value.IsPlain) : Text.IsPlain (ownLabel value) := by
  rw [ownLabel]
  cases hlabel : (value.get? "label").bind Json.asString? with
  | none => exact isPlain_scalarText h
  | some label =>
    obtain ⟨member, hmember, hstring⟩ := Option.bind_eq_some_iff.mp hlabel
    obtain ⟨members, hmembers, hlookup⟩ := Option.bind_eq_some_iff.mp hmember
    have hobject : value = .object members := by
      cases value with
      | object own =>
        cases hmembers
        rfl
      | _ => cases hmembers
    rw [hobject] at h
    exact (h.of_lookup hlookup).of_asString? hstring

/-- The elements of a value have its strings, and the nodes among them are within it. -/
theorem elements_of_mem {value element : Json} (helement : element ∈ elementsOf value) :
    (value.IsPlain → element.IsPlain) ∧
      ∀ m, view? element = some m → ∃ q, (q, m) ∈ nodesWithin value := by
  cases value using array_cases with
  | array items =>
    refine ⟨fun h => Json.isPlain_array_iff.mp h element helement, fun m hview => ?_⟩
    exact exists_mem_nodesWithin helement hview
  | other value hne =>
    rw [elementsOf_of_not_array hne, List.mem_singleton] at helement
    subst helement
    exact ⟨id, fun m hview => ⟨[], mem_nodesWithin_self hview⟩⟩

namespace Renderer

section

variable (r : Renderer String)

/-- A value with plain strings has a plain text if the nodes within it are printed to plain
texts. -/
theorem isPlain_textBy {own : Json → String}
    (hown : ∀ value, value.IsPlain → Text.IsPlain (own value)) {value : Json} (h : value.IsPlain)
    (hnodes : ∀ m, view? value = some m → (r.node m).value.IsPlain) :
    Text.IsPlain (r.textBy own value) := by
  unfold textBy
  split
  · next hnode =>
    rw [isNode_iff_view?, Option.isSome_iff_exists] at hnode
    obtain ⟨m, hview⟩ := hnode
    rw [renderValue_of_not_array r (ne_array_of_view? hview), item_of_view? r hview]
    exact isPlain_print (hnodes m hview)
  · exact hown value h

section

variable {value : Json} (h : value.IsPlain)
  (hnodes : ∀ q m, (q, m) ∈ nodesWithin value → (r.node m).value.IsPlain)
include h hnodes

/-- The text of an element of a plain list is plain. -/
theorem isPlain_element {own : Json → String}
    (hown : ∀ value, value.IsPlain → Text.IsPlain (own value)) {element : Json}
    (helement : element ∈ elementsOf value) : Text.IsPlain (r.textBy own element) := by
  obtain ⟨hplain, hwithin⟩ := elements_of_mem helement
  refine r.isPlain_textBy hown (hplain h) fun m hview => ?_
  obtain ⟨q, hq⟩ := hwithin m hview
  exact hnodes q m hq

/-- The text of plain content is plain. -/
theorem isPlain_contentText : Text.IsPlain (r.contentText value) := by
  have helement : ∀ element ∈ elementsOf value, Text.IsPlain (r.textBy scalarText element) :=
    fun _ => r.isPlain_element h hnodes fun _ => isPlain_scalarText
  cases value using array_cases with
  | array items =>
    rw [contentText]
    split
    · refine Text.isPlain_intercalate (by decide) ?_
      rw [List.forall_mem_map]
      exact helement
    · exact isPlain_scalarText h
  | other value hne =>
    rw [r.contentText_of_not_array hne]
    refine helement value ?_
    rw [elementsOf_of_not_array hne]
    exact List.mem_singleton_self value

end

/-! ## Units -/

section

variable {entries : List (String × Json)} (h : ∀ entry ∈ entries, entry.2.IsPlain)
  (hnodes : ∀ entry ∈ entries, ∀ q m, (q, m) ∈ nodesWithin entry.2 → (r.node m).value.IsPlain)
include h hnodes

/-- The text of a content is plain, if there is one. -/
theorem isPlain_content? {text : String}
    (htext : text ∈ ((entries.lookup "content").map r.contentText)) : Text.IsPlain text := by
  obtain ⟨value, hvalue, rfl⟩ := Option.map_eq_some_iff.mp htext
  have hentry := mem_of_lookup hvalue
  exact r.isPlain_contentText (h _ hentry) (hnodes _ hentry)

/-- Texts of listed elements are plain. -/
theorem isPlain_listed {own : Json → String}
    (hown : ∀ value, value.IsPlain → Text.IsPlain (own value)) (key : String) :
    ∀ text ∈ (listed entries key).map (r.textBy own), Text.IsPlain text := by
  rw [List.forall_mem_map]
  intro element helement
  rw [listed] at helement
  cases hvalue : entries.lookup key with
  | none =>
    rw [hvalue] at helement
    cases helement
  | some value =>
    rw [hvalue] at helement
    have hentry := mem_of_lookup hvalue
    exact r.isPlain_element (h _ hentry) (hnodes _ hentry) hown helement

/-- **The text of a markdown unit** is plain for plain data. -/
theorem isPlain_markdownText : Text.IsPlain (markdownText (r.props entries).value) := by
  rw [markdownText_props]
  cases htext : (entries.lookup "content").map r.contentText with
  | none => exact List.not_mem_nil
  | some text => exact r.isPlain_content? h hnodes htext

/-- **The text of suggestions** is plain for plain data. -/
theorem isPlain_suggestionsText : Text.IsPlain (suggestionsText (r.props entries).value) := by
  rw [suggestionsText_props]
  refine Text.isPlain_intercalate (by decide) ?_
  rw [List.forall_mem_map]
  intro text htext
  refine Text.isPlain_append (by decide) ?_
  exact r.isPlain_listed h hnodes (fun _ => isPlain_scalarText) "suggestions" text htext

/-- **The text of a card** is plain for plain data. -/
theorem isPlain_cardText : Text.IsPlain (cardText (r.props entries).value) := by
  have hactions := r.isPlain_listed h hnodes (fun _ => isPlain_ownLabel) "actions"
  rw [cardText_props]
  refine Text.isPlain_intercalate (by decide) fun line hline => ?_
  rw [cardHead, List.mem_append, List.mem_append, Option.mem_toList, Option.mem_toList] at hline
  rcases hline with (hline | hline) | hline
  · obtain ⟨title, htitle, rfl⟩ := Option.map_eq_some_iff.mp hline
    obtain ⟨value, hvalue, hstring⟩ := Option.bind_eq_some_iff.mp htitle
    refine Text.isPlain_append (by decide) ?_
    exact (h _ (mem_of_lookup hvalue)).of_asString? hstring
  · exact r.isPlain_content? h hnodes hline
  · rw [bracketed] at hline
    split at hline
    · cases hline
    · rw [List.mem_singleton.mp hline]
      have hseparator : Text.IsPlain "] [" := by decide
      have hjoined := Text.isPlain_intercalate hseparator hactions
      exact Text.isPlain_append (Text.isPlain_append (by decide) hjoined) (by decide)

end

end

end Renderer

/-! ## Nodes -/

/-- A renderer with the units for plain text and without schemas. -/
def textRenderer (sink : EventSink) : Renderer String := { units := plainText, sink }

/-- There are three units. -/
theorem eq_of_get?_plainText {kind : String} {unit : RenderUnit String}
    (h : plainText.get? kind = some unit) :
    unit = textUnit cardText ∨ unit = textUnit markdownText ∨ unit = textUnit suggestionsText := by
  have hentries : plainText.units.entries = [("card", textUnit cardText),
      ("markdown", textUnit markdownText), ("suggestions", textUnit suggestionsText)] := rfl
  have hmem : (kind, unit) ∈ plainText.units.entries := mem_of_lookup h
  rw [hentries] at hmem
  simp only [List.mem_cons, Prod.mk.injEq, List.not_mem_nil, or_false] at hmem
  exact hmem.imp And.right (Or.imp And.right And.right)

/-- **A node without carriage returns** is rendered to a tree without any. -/
theorem isPlain_node (sink : EventSink) (n : View) (hkind : Text.IsPlain n.kind)
    (hentries : ∀ entry ∈ n.entries, entry.2.IsPlain) :
    ((textRenderer sink).node n).value.IsPlain := by
  induction n using View.entries_induction with
  | step n ih =>
    -- the nodes within the data have plain types and plain data themselves
    have hnodes : ∀ entry ∈ n.entries, ∀ q m, (q, m) ∈ nodesWithin entry.2 →
        ((textRenderer sink).node m).value.IsPlain := by
      intro entry hentry q m hm
      have hplain : Text.IsPlain m.kind ∧ ∀ inner ∈ m.entries, inner.2.IsPlain := by
        rcases mem_nodesWithin.mp hm with ⟨-, hview⟩ | ⟨items, j, item, hitems, hitem, hview, -⟩
        · exact isPlain_of_view? (hentries entry hentry) hview
        · have harray := hentries entry hentry
          rw [hitems] at harray
          have hplain := Json.isPlain_array_iff.mp harray item (List.mem_of_getElem? hitem)
          exact isPlain_of_view? hplain hview
      exact ih entry hentry q m hm hplain.1 hplain.2
    have habsent : (textRenderer sink).absentField? n = none := rfl
    rw [Renderer.value_node_eq, habsent]
    cases hunit : (textRenderer sink).units.get? n.kind with
    | none =>
      have htext : (Placeholder.unknown n.kind).text = "Unknown: " ++ n.kind := rfl
      refine isPlain_of_ownText? rfl ?_
      rw [htext]
      exact Text.isPlain_append (by decide) hkind
    | some unit =>
      refine isPlain_of_ownText? rfl ?_
      rcases eq_of_get?_plainText hunit with rfl | rfl | rfl
      · exact (textRenderer sink).isPlain_cardText hentries hnodes
      · exact (textRenderer sink).isPlain_markdownText hentries hnodes
      · exact (textRenderer sink).isPlain_suggestionsText hentries hnodes

end Render

end Mosaic
