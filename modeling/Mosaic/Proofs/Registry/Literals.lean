import Mathlib.Logic.Relation
import Mosaic.Proofs.Dict
import Mosaic.Registry.Schema

/-!
# Schemas written by hand

A schema is read entry by entry. What does not fit is passed over where it stands: an entry that is
no text among the texts of a list, a member that is of no use or of the wrong kind, a property that
is no object. It takes nothing with it, however many such things there are and wherever they stand,
and what fits is read as it is.

* `Interspersed`, `Beside`: an entry that is no text comes into a list, a member that is not used
  into an object, or members change places.
* `FieldHint.Edit`, `Schema.Edit`: the edits of a literal that its schema does not show.
* `FieldHint.Edit.ofJson_eq`, `Schema.Edit.ofJson_eq`: one edit.
* `FieldHint.ofJson_toJson`, `Schema.ofJson_toJson`: a schema is read from the literal that says
  what is in it.
* `ofJson_edited`: all of it together, with any number of edits.
-/

namespace Mosaic.Registry

/-! ## What is passed over -/

/-- An entry that is no text comes into a list. -/
inductive Interspersed : List Json → List Json → Prop
  | entry (before after : List Json) (entry : Json) : entry.kind ≠ .string →
    Interspersed (before ++ after) (before ++ entry :: after)

/-- A member that is not used comes into an object, or the members change places. -/
inductive Beside (uses : String → Json → Prop) :
    List (String × Json) → List (String × Json) → Prop
  | member (before after : List (String × Json)) (name : String) (value : Json) :
    ¬uses name value → name ∉ (before ++ after).map Prod.fst →
    Beside uses (before ++ after) (before ++ (name, value) :: after)
  | reordered {members others : List (String × Json)} :
    (members.map Prod.fst).Nodup → members.Perm others → Beside uses members others

/-- The texts of a list; `none` for values that are no arrays. -/
def texts? (value : Json) : Option (List String) := value.asArray?.map Json.stringsIn

/-- The texts are the same as before. -/
theorem Interspersed.stringsIn_eq {items others : List Json} (h : Interspersed items others) :
    Json.stringsIn others = Json.stringsIn items := by
  obtain ⟨before, after, entry, hentry⟩ := h
  -- of the new entry no text is taken
  have hnone : entry.asString? = none := by
    cases entry with
    | string text => exact absurd rfl hentry
    | _ => rfl
  unfold Json.stringsIn
  rw [List.filterMap_append, List.filterMap_append, List.filterMap_cons_none hnone]

/-- What is read of the members that are used is the same as before. -/
theorem Beside.bind_lookup {β : Type} {uses : String → Json → Prop}
    {members others : List (String × Json)} (h : Beside uses members others) {name : String}
    {read : Json → Option β} (hread : ∀ value, (read value).isSome → uses name value) :
    (others.lookup name).bind read = (members.lookup name).bind read := by
  cases h with
  | reordered hdistinct hperm => rw [lookup_eq_of_perm hdistinct hperm]
  | member before after other value hunused hnew =>
    rw [lookup_append_cons, List.lookup_append]
    by_cases hname : name = other
    · subst hname
      -- the member is the only one of its name, and nothing is read of it
      rw [List.map_append, List.mem_append, not_or] at hnew
      have hvalue : read value = none := by
        rw [← Option.not_isSome_iff_eq_none]
        exact fun hsome => hunused (hread value hsome)
      rw [lookup_eq_none_iff_not_mem_keys.mpr hnew.1, lookup_eq_none_iff_not_mem_keys.mpr hnew.2,
        if_pos rfl]
      exact hvalue
    · rw [if_neg hname]

section

variable {value : Json}

/-- Only strings can be taken as text. -/
theorem kind_of_asString? (h : value.asString?.isSome) : value.kind = .string := by
  cases value with
  | string text => rfl
  | _ => cases h

/-- Only booleans can be taken as truth values. -/
theorem kind_of_asBool? (h : value.asBool?.isSome) : value.kind = .boolean := by
  cases value with
  | bool b => rfl
  | _ => cases h

/-- Only arrays have texts, even if none of their items is one. -/
theorem kind_of_texts? (h : (texts? value).isSome) : value.kind = .array := by
  cases value with
  | array items => rfl
  | _ => cases h

end

/-! ## Hints -/

namespace FieldHint

/-- The members of a property that are used: those that are of the right kind. -/
def Uses (name : String) (value : Json) : Prop :=
  name = "type" ∧ value.kind = .string ∨ name = "optional" ∧ value.kind = .boolean ∨
    name = "enum" ∧ value.kind = .array ∨ name = "items"

/-- An edit of a property that its hint does not show. -/
inductive Edit : Json → Json → Prop
  | beside {members others : List (String × Json)} : Beside Uses members others →
    Edit (.object members) (.object others)
  | listed (before after : List (String × Json)) {items others : List Json} :
    Interspersed items others →
    Edit (.object (before ++ ("enum", .array items) :: after))
      (.object (before ++ ("enum", .array others) :: after))
  /-- A property that is no object says nothing. -/
  | unreadable (value : Json) : value.kind ≠ .object → Edit (.object []) value

/-- A hint is made of four lookups. A member of the wrong kind counts as missing. -/
theorem ofJson_object (members : List (String × Json)) :
    ofJson (.object members) = {
      kind := (members.lookup "type").bind Json.asString?
      isOptional := ((members.lookup "optional").bind Json.asBool?).getD false
      values := ((members.lookup "enum").bind texts?).getD []
      items := members.lookup "items" } := by
  have hvalues : ((members.lookup "enum").bind Json.asArray?).map Json.stringsIn =
      (members.lookup "enum").bind texts? := Option.map_bind
  rw [← hvalues]
  rfl

/-- A property that is no object has the empty hint. -/
theorem ofJson_of_kind_ne {value : Json} (h : value.kind ≠ .object) : ofJson value = {} := by
  cases value with
  | object members => exact absurd rfl h
  | _ => rfl

/-- **An edit of a property** leaves its hint as it was. -/
theorem Edit.ofJson_eq {value edited : Json} (h : Edit value edited) :
    ofJson edited = ofJson value := by
  cases h with
  | @beside members others hbeside =>
    -- each part of the hint is read of one member, which is used if it gives anything
    have htype : (others.lookup "type").bind Json.asString? =
        (members.lookup "type").bind Json.asString? :=
      hbeside.bind_lookup fun _ hsome => .inl ⟨rfl, kind_of_asString? hsome⟩
    have hoptional : (others.lookup "optional").bind Json.asBool? =
        (members.lookup "optional").bind Json.asBool? :=
      hbeside.bind_lookup fun _ hsome => .inr (.inl ⟨rfl, kind_of_asBool? hsome⟩)
    have henum : (others.lookup "enum").bind texts? = (members.lookup "enum").bind texts? :=
      hbeside.bind_lookup fun _ hsome => .inr (.inr (.inl ⟨rfl, kind_of_texts? hsome⟩))
    -- items are used whatever they are
    have hitems : (others.lookup "items").bind some = (members.lookup "items").bind some :=
      hbeside.bind_lookup fun _ _ => .inr (.inr (.inr rfl))
    rw [Option.bind_fun_some, Option.bind_fun_some] at hitems
    rw [ofJson_object, ofJson_object, htype, hoptional, henum, hitems]
  | @listed before after items others hitems =>
    have hvalues : texts? (.array others) = texts? (.array items) :=
      congrArg some hitems.stringsIn_eq
    -- the other members stay
    have hother : ∀ {β : Type} (name : String) (read : Json → Option β), name ≠ "enum" →
        ((before ++ ("enum", .array others) :: after).lookup name).bind read =
          ((before ++ ("enum", .array items) :: after).lookup name).bind read :=
      fun name read hne => bind_lookup_replace before after "enum" fun heq => absurd heq hne
    have hrest := hother "items" some (by decide)
    rw [Option.bind_fun_some, Option.bind_fun_some] at hrest
    rw [ofJson_object, ofJson_object, hother "type" _ (by decide),
      hother "optional" _ (by decide), bind_lookup_replace before after "enum" fun _ => hvalues,
      hrest]
  | unreadable value hkind =>
    rw [ofJson_of_kind_ne hkind]
    rfl

/-- The literal that says what is in a hint. -/
def toJson (hint : FieldHint) : Json :=
  .object ((hint.kind.map fun kind => ("type", .string kind)).toList ++
    [("optional", .bool hint.isOptional), ("enum", .array (hint.values.map .string))] ++
    (hint.items.map fun items => ("items", items)).toList)

end FieldHint

/-- Texts that are written as an array are read back. -/
theorem stringsIn_map_string (texts : List String) :
    Json.stringsIn (texts.map .string) = texts := by
  unfold Json.stringsIn
  rw [List.filterMap_map]
  exact List.filterMap_some

/-- Every hint is that of some property. -/
theorem FieldHint.ofJson_toJson (hint : FieldHint) : ofJson hint.toJson = hint := by
  obtain ⟨kind, isOptional, values, items⟩ := hint
  unfold toJson
  rw [ofJson_object]
  have hvalues : texts? (.array (values.map .string)) = some values :=
    congrArg some (stringsIn_map_string values)
  -- a member that is not written is not found
  cases kind <;> cases items <;>
    exact FieldHint.ext rfl rfl (congrArg (Option.getD · []) hvalues) rfl

/-! ## Schemas -/

namespace Schema

/-- The members of a schema that are used. -/
def Uses (name : String) (value : Json) : Prop :=
  name = "required" ∧ value.kind = .array ∨ name = "properties" ∧ value.kind = .object

/-- An edit of a literal that its schema does not show. -/
inductive Edit : Json → Json → Prop
  | beside {members others : List (String × Json)} : Beside Uses members others →
    Edit (.object members) (.object others)
  | required (before after : List (String × Json)) {names others : List Json} :
    Interspersed names others →
    Edit (.object (before ++ ("required", .array names) :: after))
      (.object (before ++ ("required", .array others) :: after))
  | property (before after earlier later : List (String × Json)) (name : String)
    {hint edited : Json} : FieldHint.Edit hint edited →
    Edit (.object (before ++ ("properties", .object (earlier ++ (name, hint) :: later)) :: after))
      (.object (before ++ ("properties", .object (earlier ++ (name, edited) :: later)) :: after))
  /-- A literal that is no object says nothing. -/
  | unreadable (value : Json) : value.kind ≠ .object → Edit (.object []) value

/-- A property with its hint. -/
def hinted (member : String × Json) : String × FieldHint := (member.1, .ofJson member.2)

/-- The properties in an object; `none` for values that are no objects. -/
def properties? (value : Json) : Option (Dict FieldHint) :=
  value.asObject?.map fun members => .ofList (members.map hinted)

/-- Only objects have properties. -/
theorem kind_of_properties? {value : Json} (h : (properties? value).isSome) :
    value.kind = .object := by
  cases value with
  | object members => rfl
  | _ => cases h

/-- A schema is made of two lookups. A member of the wrong kind counts as missing. -/
theorem ofJson_object (members : List (String × Json)) :
    ofJson (.object members) = {
      required := ((members.lookup "required").bind texts?).getD []
      properties := ((members.lookup "properties").bind properties?).getD ∅ } := by
  have hrequired : ((members.lookup "required").bind Json.asArray?).map Json.stringsIn =
      (members.lookup "required").bind texts? := Option.map_bind
  have hproperties : ((members.lookup "properties").bind Json.asObject?).map
      (fun properties => Dict.ofList (properties.map hinted)) =
      (members.lookup "properties").bind properties? := Option.map_bind
  rw [← hrequired, ← hproperties]
  rfl

/-- A literal that is no object has the empty schema. -/
theorem ofJson_of_kind_ne {value : Json} (h : value.kind ≠ .object) : ofJson value = {} := by
  cases value with
  | object members => exact absurd rfl h
  | _ => rfl

/-- One value in the place of another, where a schema shows neither its texts nor its properties. -/
theorem ofJson_replace (before after : List (String × Json)) {name : String}
    {value value' : Json} (htexts : "required" = name → texts? value' = texts? value)
    (hproperties : "properties" = name → properties? value' = properties? value) :
    ofJson (.object (before ++ (name, value') :: after)) =
      ofJson (.object (before ++ (name, value) :: after)) := by
  rw [ofJson_object, ofJson_object, bind_lookup_replace before after name htexts,
    bind_lookup_replace before after name hproperties]

/-- **An edit of a literal** leaves its schema as it was. -/
theorem Edit.ofJson_eq {value edited : Json} (h : Edit value edited) :
    ofJson edited = ofJson value := by
  cases h with
  | @beside members others hbeside =>
    have hrequired : (others.lookup "required").bind texts? =
        (members.lookup "required").bind texts? :=
      hbeside.bind_lookup fun _ hsome => .inl ⟨rfl, kind_of_texts? hsome⟩
    have hproperties : (others.lookup "properties").bind properties? =
        (members.lookup "properties").bind properties? :=
      hbeside.bind_lookup fun _ hsome => .inr ⟨rfl, kind_of_properties? hsome⟩
    rw [ofJson_object, ofJson_object, hrequired, hproperties]
  | required before after hnames =>
    refine ofJson_replace before after (fun _ => ?_) fun heq => absurd heq (by decide)
    exact congrArg some hnames.stringsIn_eq
  | @property before after earlier later name hint edited hedit =>
    refine ofJson_replace before after (fun heq => absurd heq (by decide)) fun _ => ?_
    -- the property has the hint that it had
    have hsame : hinted (name, edited) = hinted (name, hint) := by
      unfold hinted
      rw [hedit.ofJson_eq]
    show some (Dict.ofList _) = some (Dict.ofList _)
    rw [List.map_append, List.map_append, List.map_cons, List.map_cons, hsame]
  | unreadable value hkind =>
    rw [ofJson_of_kind_ne hkind]
    rfl

/-- **Any number of edits**, made or taken back. -/
theorem ofJson_eq_of_eqvGen {value edited : Json} (h : Relation.EqvGen Edit value edited) :
    ofJson edited = ofJson value := by
  induction h with
  | rel _ _ hedit => exact hedit.ofJson_eq
  | refl => rfl
  | symm _ _ _ ih => exact ih.symm
  | trans _ _ _ _ _ ih ih' => exact ih'.trans ih

/-- The literal that says what is in a schema. -/
def toJson (schema : Schema) : Json :=
  .object [("required", .array (schema.required.map .string)),
    ("properties", .ofDict (schema.properties.map fun _ hint => hint.toJson))]

/-- A property that says what is in its hint. -/
theorem hinted_toJson (entry : String × FieldHint) :
    hinted (entry.1, entry.2.toJson) = entry := by
  unfold hinted
  rw [FieldHint.ofJson_toJson]

/-- **A schema is read from its literal**, with nothing lost. -/
theorem ofJson_toJson (schema : Schema) : ofJson schema.toJson = schema := by
  obtain ⟨required, properties⟩ := schema
  have htexts : texts? (.array (required.map .string)) = some required :=
    congrArg some (stringsIn_map_string required)
  have hentries : (properties.entries.map fun entry => (entry.1, entry.2.toJson)).map hinted =
      properties.entries := by
    rw [List.map_map]
    exact (List.map_congr_left fun entry _ => hinted_toJson entry).trans (List.map_id _)
  have hproperties : properties? (.ofDict (properties.map fun _ hint => hint.toJson)) =
      some properties := by
    show some (Dict.ofList
      ((properties.entries.map fun entry => (entry.1, entry.2.toJson)).map hinted)) = _
    rw [hentries]
    exact congrArg some (Dict.ext (Dict.entries_ofList properties.distinct))
  unfold toJson
  rw [ofJson_object]
  exact congrArg₂ Schema.mk (congrArg (Option.getD · []) htexts)
    (congrArg (Option.getD · ∅) hproperties)

/-- Each property has its hint at its place. -/
theorem entries_properties {value : Json} {members : List (String × Json)}
    (hmembers : value.get? "properties" = some (.object members))
    (hdistinct : (members.map Prod.fst).Nodup) :
    (ofJson value).properties.entries = members.map hinted := by
  -- a property keeps its name, so that no two of them fall together
  have hnames : ((members.map hinted).map Prod.fst).Nodup := by
    rwa [List.map_map]
  unfold ofJson
  rw [hmembers]
  exact Dict.entries_ofList hnames

end Schema

/-! ## Tolerance -/

/-- **Reading a schema is tolerant**, entry by entry: edits that it does not show change nothing, a
property that is no object keeps its place with nothing said about it, and a schema is read as it
is from the literal that says it. -/
theorem ofJson_edited (value : Json) :
    (∀ edited, Relation.EqvGen Schema.Edit value edited →
      Schema.ofJson edited = Schema.ofJson value) ∧
    (∀ before name hint after,
      value.get? "properties" = some (.object (before ++ (name, hint) :: after)) →
      ((before ++ (name, hint) :: after).map Prod.fst).Nodup → hint.kind ≠ .object →
      (Schema.ofJson value).properties.entries =
        before.map Schema.hinted ++ (name, {}) :: after.map Schema.hinted) ∧
    ∀ schema : Schema, Schema.ofJson schema.toJson = schema := by
  refine ⟨fun edited hedits => Schema.ofJson_eq_of_eqvGen hedits, ?_, Schema.ofJson_toJson⟩
  intro before name hint after hproperties hdistinct hkind
  have hempty : Schema.hinted (name, hint) = (name, {}) := by
    unfold Schema.hinted
    rw [FieldHint.ofJson_of_kind_ne hkind]
  rw [Schema.entries_properties hproperties hdistinct, List.map_append, List.map_cons, hempty]

/-- A literal with a required name that comes twice, and a property of which nothing is said. -/
def tidyLiteral : Json :=
  .object [("required", .array [.string "size", .string "size"]),
    ("properties", .object [
      ("size", .object [("type", .string "string"), ("enum", .array [.string "s", .string "m"])]),
      ("note", .object [])])]

/-- The same in other words. -/
def untidyLiteral : Json :=
  .object [("title", .string "Sizes"),
    ("properties", .object [
      ("size", .object [("type", .string "string"), ("optional", .string "yes"),
        ("enum", .array [.string "s", .null, .string "m"])]),
      ("note", .bool true)]),
    ("required", .array [.null, .string "size", .string "size"])]

/-- Six edits lead from one literal to the other. -/
theorem eqvGen_untidyLiteral : Relation.EqvGen Schema.Edit tidyLiteral untidyLiteral := by
  have hoptional : ¬FieldHint.Uses "optional" (.string "yes") := by
    simp [FieldHint.Uses, Json.kind]
  have htitle : ¬Schema.Uses "title" (.string "Sizes") := by simp [Schema.Uses]
  unfold tidyLiteral untidyLiteral
  -- the required names come last, and get an entry that is no text
  refine .trans _ _ _ (.rel _ _ (.beside (.reordered (by decide) (.swap _ _ _)))) ?_
  refine .trans _ _ _ (.rel _ _ (.required [_] [] (.entry [] _ .null (by decide)))) ?_
  -- the properties, one after the other
  refine .trans _ _ _ (.rel _ _ (.property [] _ [] _ "size"
    (.listed [_] [] (.entry [_] [_] .null (by decide))))) ?_
  refine .trans _ _ _ (.rel _ _ (.property [] _ [] _ "size"
    (.beside (.member [_] [_] "optional" (.string "yes") hoptional (by decide))))) ?_
  refine .trans _ _ _ (.rel _ _ (.property [] _ [_] [] "note"
    (.unreadable (.bool true) (by decide)))) ?_
  -- a member of its own
  exact .rel _ _ (.beside (.member [] _ "title" (.string "Sizes") htitle (by decide)))

theorem ofJson_edited_untidyLiteral :
    Relation.EqvGen Schema.Edit tidyLiteral untidyLiteral ∧
    Schema.ofJson untidyLiteral = Schema.ofJson tidyLiteral ∧
    (Schema.ofJson untidyLiteral).properties.entries =
      [("size", { kind := some "string", values := ["s", "m"] }), ("note", {})] :=
  ⟨eqvGen_untidyLiteral, (ofJson_edited tidyLiteral).1 untidyLiteral eqvGen_untidyLiteral,
    (ofJson_edited untidyLiteral).2.1 [_] "note" (.bool true) [] rfl (by decide) (by decide)⟩

end Mosaic.Registry
