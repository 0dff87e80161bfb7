import Mosaic.Proofs.Render.Dispatch
import Mosaic.Proofs.Render.Layout

/-!
# Fields of the plain-text units

A unit is given a list in one of two forms: as it stands in the data, or, if a node is among its
elements, as a list in which the nodes have been rendered. The units for plain text take both forms
apart in the same way, so that an element has the text that it has on its own, whatever stands
beside it.

* `textBy`: the text of an element by itself.
* `propElements_prop`: the elements of a prop, whichever form it is in.
* `suggestionsText_props`, `cardText_props`, `markdownText_props`: the three units, read off the
  data instead of the props.
* `ListField`: the two fields that hold lists, and how their lines are put together.
* `listField_elementwise`: what is printed for a list, and what changes with a part of it.
-/

namespace Mosaic.Render

open Mosaic.Composition

/-! ## Values by themselves -/

/-- The string under `label`, if there is one. -/
def ownLabel (value : Json) : String :=
  ((value.get? "label").bind Json.asString?).getD (scalarText value)

/-- The elements of an array; any other value is its own only element. -/
def elementsOf : Json → List Json
  | .array items => items
  | value => [value]

/-- What is no list counts as a list of one element. -/
theorem elementsOf_of_not_array {value : Json} (h : ∀ items, value ≠ .array items) :
    elementsOf value = [value] := by
  cases value with
  | array items => exact absurd rfl (h items)
  | _ => rfl

/-- The texts of a list are those of its elements. -/
theorem propTexts_eq_map (items : List (PropValue String)) :
    propTexts items = items.map propText := by
  induction items with
  | nil => rw [propTexts, List.map_nil]
  | cons item rest ih => rw [propTexts, ih, List.map_cons]

/-- What is printed of the output of a unit: its lines, ended by line feeds, without the blanks at
the end. -/
theorem print_unit (component output : String) :
    print (.unit component output) =
      String.ofList (Text.trimEnd (Text.joined (Text.lines output.toList))) := by
  -- outside of rows nothing is indented
  have hblock : blockChars 0 output.toList = Text.joined (Text.lines output.toList) := rfl
  rw [print, treeChars, hblock]

namespace Renderer

section

variable (r : Renderer String)

/-- The text of a value by itself: a node is printed, and any other value has a text of its own. -/
def textBy (own : Json → String) (value : Json) : String :=
  if isNode value then print (r.renderValue value).value else own value

/-- The text of the content of a unit: of an array that has a node among its elements the texts of
the elements, and of anything else its own. -/
def contentText : Json → String
  | .array items =>
    if items.any isNode then "\n".intercalate (items.map (r.textBy scalarText))
    else scalarText (.array items)
  | value => r.textBy scalarText value

/-- Content that is no list is one text. -/
theorem contentText_of_not_array {value : Json} (h : ∀ items, value ≠ .array items) :
    r.contentText value = r.textBy scalarText value := by
  cases value with
  | array items => exact absurd rfl (h items)
  | _ => rfl

/-! ## Props -/

/-- An element has the same text as a prop and on its own. -/
theorem propText_propItem (value : Json) :
    propText (r.propItem value).value = r.textBy scalarText value := by
  unfold textBy
  split
  · next hnode => rw [value_propItem_of_isNode r hnode, propText]
  · next hnode => rw [value_propItem_of_not_isNode r hnode, propText]

/-- An element has the same label as a prop and on its own. -/
theorem actionLabel_propItem (value : Json) :
    actionLabel (r.propItem value).value = r.textBy ownLabel value := by
  unfold textBy
  split
  · next hnode =>
    rw [value_propItem_of_isNode r hnode]
    show propText (.component (r.renderValue value).value) = _
    rw [propText]
  · next hnode =>
    rw [value_propItem_of_not_isNode r hnode]
    rfl

/-- **The elements of a prop** are those of the value in the data, each processed by itself,
whether the unit is given a list or the array as it stands. -/
theorem propElements_prop (value : Json) :
    propElements (r.prop value).value =
      (elementsOf value).map fun element => (r.propItem element).value := by
  cases value using array_cases with
  | array items =>
    rw [prop_array]
    split
    · rw [Traced.value_map, Traced.value_mapM]
      rfl
    · next hany =>
      -- without a node among them the elements are passed on as they are
      have hplain : ∀ item ∈ items, (r.propItem item).value = .value item := by
        intro item hitem
        rw [propItem_of_not_node r
          (view?_eq_none_of_any_eq_false (Bool.not_eq_true _ ▸ hany) hitem)]
        rfl
      exact (List.map_congr_left hplain).symm
  | other value hne =>
    rw [prop_of_not_array r hne, elementsOf_of_not_array hne, List.map_singleton]
    by_cases hnode : isNode value
    · rw [value_propItem_of_isNode r hnode]
      rfl
    · rw [value_propItem_of_not_isNode r hnode]
      cases value with
      | array items => exact absurd rfl (hne items)
      | _ => rfl

/-- A value has the same text as a prop and on its own. -/
theorem propText_prop (value : Json) : propText (r.prop value).value = r.contentText value := by
  cases value using array_cases with
  | array items =>
    rw [prop_array, contentText]
    split
    · rw [Traced.value_map, Traced.value_mapM, propText, propTexts_eq_map, List.map_map]
      exact congrArg _ (List.map_congr_left fun item _ => r.propText_propItem item)
    · rw [Traced.value_pure, propText]
  | other value hne =>
    rw [prop_of_not_array r hne, propText_propItem, r.contentText_of_not_array hne]

/-- Only a string is given to a unit as a string. -/
theorem asString?_prop (value : Json) : (r.prop value).value.asString? = value.asString? := by
  cases value using array_cases with
  | array items =>
    rw [prop_array]
    split <;> rfl
  | other value hne =>
    rw [prop_of_not_array r hne]
    by_cases hnode : isNode value
    · rw [value_propItem_of_isNode r hnode]
      cases value with
      | object members => rfl
      | _ => cases hnode
    · rw [value_propItem_of_not_isNode r hnode]
      rfl

/-- The prop of a key is made of the value of this key, and there is none without it. -/
theorem lookup_props (entries : List (String × Json)) (key : String) :
    (r.props entries).value.lookup key =
      (entries.lookup key).map fun value => (r.prop value).value := by
  rw [value_props, lookup_map_snd fun value => (r.prop value).value]

/-! ## Units -/

/-- The elements of what stands under a key. -/
def listed (entries : List (String × Json)) (key : String) : List Json :=
  ((entries.lookup key).map elementsOf).getD []

/-- What is listed under a key is the list there. -/
theorem listed_of_lookup {entries : List (String × Json)} {key : String} {items : List Json}
    (h : entries.lookup key = some (.array items)) : listed entries key = items := by
  rw [listed, h]
  rfl

/-- The elements that a unit finds under a key. -/
theorem propElements_lookup (entries : List (String × Json)) (key : String) :
    (((r.props entries).value.lookup key).map propElements).getD [] =
      (listed entries key).map fun element => (r.propItem element).value := by
  rw [lookup_props, listed]
  cases entries.lookup key with
  | none => rfl
  | some value => exact r.propElements_prop value

/-- The heading and the content of a card, as far as they are there. -/
def cardHead (entries : List (String × Json)) : List String :=
  (((entries.lookup "title").bind Json.asString?).map ("# " ++ ·)).toList ++
    ((entries.lookup "content").map r.contentText).toList

/-- Some labels in brackets on one line, or no line if there are none. -/
def bracketed (labels : List String) : List String :=
  if labels.isEmpty then [] else ["[" ++ "] [".intercalate labels ++ "]"]

/-- A markdown unit shows the text of its content. -/
theorem markdownText_props (entries : List (String × Json)) :
    markdownText (r.props entries).value =
      ((entries.lookup "content").map r.contentText).getD "" := by
  rw [markdownText, lookup_props, Option.map_map]
  exact congrArg (fun text : Option String => text.getD "")
    (Option.map_congr fun value _ => r.propText_prop value)

/-- A unit of suggestions shows a line for each of them. -/
theorem suggestionsText_props (entries : List (String × Json)) :
    suggestionsText (r.props entries).value =
      "\n".intercalate
        (((listed entries "suggestions").map (r.textBy scalarText)).map ("> " ++ ·)) := by
  rw [suggestionsText, propElements_lookup, List.map_map, List.map_map]
  refine congrArg _ (List.map_congr_left fun element _ => ?_)
  rw [Function.comp_apply, Function.comp_apply, ← propText_propItem]
  rfl

/-- A card shows its head, and then the labels of its actions. -/
theorem cardText_props (entries : List (String × Json)) :
    cardText (r.props entries).value =
      "\n".intercalate
        (r.cardHead entries ++
          bracketed ((listed entries "actions").map (r.textBy ownLabel))) := by
  have htitle : ((r.props entries).value.lookup "title").bind (·.asString?) =
      (entries.lookup "title").bind Json.asString? := by
    rw [lookup_props]
    cases entries.lookup "title" with
    | none => rfl
    | some value => exact r.asString?_prop value
  have hcontent : ((r.props entries).value.lookup "content").map propText =
      (entries.lookup "content").map r.contentText := by
    rw [lookup_props, Option.map_map]
    exact Option.map_congr fun value _ => r.propText_prop value
  have hlabels : ((((r.props entries).value.lookup "actions").map propElements).getD []).map
      actionLabel = (listed entries "actions").map (r.textBy ownLabel) := by
    rw [propElements_lookup, List.map_map]
    exact List.map_congr_left fun element _ => r.actionLabel_propItem element
  rw [cardText, htitle, hcontent, hlabels, cardHead, bracketed]
  -- each of the three parts is there or is left out
  refine congrArg _ ?_
  cases (entries.lookup "title").bind Json.asString? <;>
    cases (entries.lookup "content").map r.contentText <;>
    cases ((listed entries "actions").map (r.textBy ownLabel)).isEmpty <;> rfl

end

/-! ## Fields that hold lists -/

/-- The fields of the units for plain text that hold lists. -/
inductive ListField
  | suggestions
  | actions
  deriving DecidableEq

namespace ListField

/-- The type of the nodes that have the field. -/
def kind : ListField → String
  | suggestions => "suggestions"
  | actions => "card"

/-- The key under which a field stands. -/
def key : ListField → String
  | suggestions => "suggestions"
  | actions => "actions"

/-- What the unit makes of its props. -/
def text : ListField → Props String → String
  | suggestions => suggestionsText
  | actions => cardText

/-- The text of an element that is no node. -/
def ownText : ListField → Json → String
  | suggestions => scalarText
  | actions => ownLabel

/-- The lines before those of the list. -/
def head (r : Renderer String) (entries : List (String × Json)) : ListField → List String
  | suggestions => []
  | actions => r.cardHead entries

/-- The lines of the list: one for each suggestion, and one for all actions. -/
def lines (texts : List String) : ListField → List String
  | suggestions => texts.map ("> " ++ ·)
  | actions => bracketed texts

/-- The text of a unit with the lines before the list and the texts of the elements. -/
def output (field : ListField) (head texts : List String) : String :=
  "\n".intercalate (head ++ field.lines texts)

/-- There is a unit for each field that is a list. -/
theorem get?_plainText (field : ListField) :
    plainText.get? field.kind = some (textUnit field.text) := by
  cases field <;> rfl

/-- **The text of a unit with a list** is made of its head and of one text for each element. -/
theorem text_props (r : Renderer String) (field : ListField) (entries : List (String × Json)) :
    field.text (r.props entries).value =
      field.output (field.head r entries)
        ((listed entries field.key).map (r.textBy field.ownText)) := by
  cases field with
  | suggestions => exact r.suggestionsText_props entries
  | actions => exact r.cardText_props entries

end ListField

/-- A value is rendered by a unit that puts out a text, and what is printed for it are the lines of
this text, without the blanks at the end. -/
structure PutsOut (r : Renderer String) (v : Json) (kind text : String) : Prop where
  tree : (r.renderValue v).value = .unit kind text
  printed : print (r.renderValue v).value =
    String.ofList (Text.trimEnd (Text.joined (Text.lines text.toList)))

section

variable {r : Renderer String} {v : Json} {n : View}

/-- A node that passes validation and whose type has a unit puts out what the unit makes of its
props. -/
theorem putsOut_of_unit (hview : view? v = some n) (hpasses : r.passes n = true)
    {text : Props String → String} (hunit : r.units.get? n.kind = some (textUnit text)) :
    r.PutsOut v n.kind (text (r.props n.entries).value) := by
  have htree : (r.renderValue v).value = .unit n.kind (text (r.props n.entries).value) := by
    rw [renderValue_of_not_array r (ne_array_of_view? hview), item_of_view? r hview, value_node_eq,
      (passes_iff_absentField? r n).mp hpasses, hunit]
    rfl
  exact ⟨htree, by rw [htree, print_unit]⟩

/-- **A list field**, whatever its elements are. -/
theorem putsOut_listField (field : ListField)
    (hunit : r.units.get? field.kind = plainText.get? field.kind) (hview : view? v = some n)
    (hkind : n.kind = field.kind) (hpasses : r.passes n = true) {items : List Json}
    (hlist : n.entries.lookup field.key = some (.array items)) :
    r.PutsOut v field.kind
      (field.output (field.head r n.entries) (items.map (r.textBy field.ownText))) := by
  have hunit' : r.units.get? n.kind = some (textUnit field.text) := by
    rw [hkind, hunit, field.get?_plainText]
  have hputs := putsOut_of_unit hview hpasses hunit'
  rw [field.text_props, listed_of_lookup hlist, hkind] at hputs
  exact hputs

end

/-- The lines before a list depend on the other fields. -/
theorem ListField.head_congr {r : Renderer String} (field : ListField)
    {entries entries' : List (String × Json)}
    (h : ∀ key, key ≠ field.key → entries'.lookup key = entries.lookup key) :
    field.head r entries' = field.head r entries := by
  cases field with
  | suggestions => rfl
  | actions =>
    show r.cardHead entries' = r.cardHead entries
    rw [cardHead, cardHead, h "title" (by decide), h "content" (by decide)]

/-- **A list is printed element by element.** In a node that has one of the default units and a
list in its field, every element is printed as it is by itself: a node as its tree, and anything
else by its own text, whether or not there are nodes among the elements. In another node that is
the same but for a part of the list, only the texts of this part are different. -/
theorem listField_elementwise (r : Renderer String) (field : ListField)
    (hunit : r.units.get? field.kind = plainText.get? field.kind) {v : Json} {n : View}
    (hview : view? v = some n) (hkind : n.kind = field.kind) (hpasses : r.passes n = true)
    {before old after : List Json}
    (hlist : n.entries.lookup field.key = some (.array (before ++ old ++ after))) :
    let texts : List Json → List String := List.map (r.textBy field.ownText)
    r.PutsOut v field.kind
      (field.output (field.head r n.entries) (texts before ++ texts old ++ texts after)) ∧
    ∀ (v' : Json) (n' : View) (new : List Json),
      view? v' = some n' → n'.kind = field.kind → r.passes n' = true →
      (∀ key, key ≠ field.key → n'.entries.lookup key = n.entries.lookup key) →
      n'.entries.lookup field.key = some (.array (before ++ new ++ after)) →
      r.PutsOut v' field.kind
        (field.output (field.head r n.entries) (texts before ++ texts new ++ texts after)) := by
  intro texts
  -- the texts of the three stretches make up those of the whole list
  have htexts : ∀ part, texts before ++ texts part ++ texts after =
      (before ++ part ++ after).map (r.textBy field.ownText) := by
    intro part
    rw [List.map_append, List.map_append]
  constructor
  · rw [htexts]
    exact putsOut_listField field hunit hview hkind hpasses hlist
  · intro v' n' new hview' hkind' hpasses' hothers hlist'
    -- the head is made of the other fields, which have not changed
    rw [htexts, ← field.head_congr hothers]
    exact putsOut_listField field hunit hview' hkind' hpasses' hlist'

end Renderer

/-! ### A card with three actions

The first one is a node or a string, so that the card is given its actions in the one form or in
the other. -/

open Renderer

/-- A value that is neither a text nor a node. -/
def details : Json :=
  .object [("type", .string "markdown"), ("data", .object [("content", .string "Details\n")])]

def openAction : Json := .object [("label", .string "Open"), ("id", .null)]

/-- The entries of a card with two actions, the first of which may be anything. -/
def offerEntries (first : Json) : List (String × Json) :=
  [("title", .string "Offer"), ("actions", .array [first, openAction, .string "Close"])]

/-- A card with these entries. -/
def offer (first : Json) : Json :=
  .object [("type", .string "card"), ("data", .object (offerEntries first))]

/-- A renderer of plain texts that requires a title of cards. -/
def offerRenderer : Renderer String where
  units := plainText

/-- Both forms are printed the same. -/
theorem listField_elementwise_offer :
    isNode details = true ∧ isNode (.string "Details") = false ∧
    view? (offer details) = some ⟨"card", offerEntries details⟩ ∧
    (offerEntries details).lookup "actions" =
      some (.array ([] ++ [details] ++ [openAction, .string "Close"])) ∧
    offerRenderer.PutsOut (offer details) "card" "# Offer\n[Details] [Open] [Close]" ∧
    offerRenderer.PutsOut (offer (.string "Details")) "card"
      "# Offer\n[Details] [Open] [Close]" := by
  have hview : view? (offer details) = some ⟨"card", offerEntries details⟩ := rfl
  have hlist : (offerEntries details).lookup "actions" =
      some (.array ([] ++ [details] ++ [openAction, .string "Close"])) := rfl
  have hothers : ∀ key, key ≠ "actions" →
      (offerEntries (.string "Details")).lookup key = (offerEntries details).lookup key := by
    intro key hkey
    have hne : (key == "actions") = false := beq_eq_false_iff_ne.mpr hkey
    simp [offerEntries, List.lookup_cons, hne]
  obtain ⟨hnode, hstring⟩ :=
    listField_elementwise offerRenderer .actions rfl hview rfl rfl hlist
  refine ⟨rfl, rfl, hview, hlist, hnode, ?_⟩
  exact hstring (offer (.string "Details")) ⟨"card", offerEntries (.string "Details")⟩
    [.string "Details"] rfl rfl rfl hothers rfl

end Mosaic.Render
