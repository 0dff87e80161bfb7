import Mosaic.Proofs.Json.Members
import Mosaic.Proofs.Json.Spelling
import Mosaic.Proofs.Merged
import Mosaic.Proofs.Render.Nodes
import Mosaic.Proofs.Results
import Mosaic.Render.PlainText

/-!
# Nodes on their own

A node stands in a composition as an object, where it is only looked at, or on its own, as its type
and its data. Whoever looks at an object wants a type that is a text and not empty, and takes data
that is no object for none. Whoever reads it as a record refuses such data, and takes any text for
a type. Where both take the object, they find the same in it.

* `Draft.Holds`, `holds_concat_iff`: what is read of the members of an object, one by one.
* `Shows`, `ofValue_eq_ok_iff`: the objects that are read as a node.
* `toValue_eq_toJson`, `ofValue_toJson`, `toJson_built`: what a node is written as, and that it is
  read back.
* `Shows.shape_eq`, `Shows.renderValue_eq`, `exists_shows_iff`: what is seen of such an object, and
  rendered of it.
* `views_agree`: all of it together.
-/

namespace Mosaic.Composition.Node

open Json.Form

/-! ## Reading -/

/-- What a draft holds is what is read of the members named `type` and `data`. -/
structure Draft.Holds (draft : Draft) (members : List (String × Json)) : Prop where
  kind : string.Takes members "type" draft.kind
  data : (dict Json.Form.value).Takes members "data" draft.data

/-- Members of other names are passed over. -/
theorem ofMember_of_ne {name : String} (htype : "type" ≠ name) (hdata : "data" ≠ name)
    (draft : Draft) (value : Json) : record.ofMember draft (name, value) = .ok draft := by
  have hfield : record.field? name = none := by
    simp [Record.field?, record, Field.of, htype, hdata]
  unfold Record.ofMember
  rw [hfield]

section

variable {members : List (String × Json)} {draft : Draft}

theorem holds_iff : draft.Holds members ↔
    string.Takes members "type" draft.kind ∧ (dict Json.Form.value).Takes members "data" draft.data :=
  ⟨fun h => ⟨h.kind, h.data⟩, fun h => ⟨h.1, h.2⟩⟩

theorem exists_draft_iff {p : Draft → Prop} : (∃ d, p d) ↔ ∃ kind data, p ⟨kind, data⟩ :=
  ⟨fun ⟨d, h⟩ => ⟨d.kind, d.data, h⟩, fun ⟨kind, data, h⟩ => ⟨⟨kind, data⟩, h⟩⟩

/-- **One member more**, of a new name, fills in its field if it has one. -/
theorem holds_concat_iff {name : String} (hnew : name ∉ members.map Prod.fst) (value : Json) :
    draft.Holds (members ++ [(name, value)]) ↔
      ∃ before : Draft, before.Holds members ∧
        record.ofMember before (name, value) = .ok draft := by
  obtain ⟨kind, data⟩ := draft
  simp only [exists_draft_iff, holds_iff]
  -- the member is the type, or the data, or one of those that are ignored
  by_cases htype : "type" = name
  · subst htype
    have hother : "data" ≠ "type" := by decide
    rw [takes_concat_of_ne hother]
    exact takes_concat_filled_iff Draft.mk (record.ofMember · ("type", value)) hnew
      (fun _ _ _ _ => Draft.mk.inj) fun _ _ => rfl
  by_cases hdata : "data" = name
  · subst hdata
    rw [takes_concat_of_ne htype, and_comm, exists_comm]
    simp only [and_comm (a := string.Takes _ _ _)]
    exact takes_concat_filled_iff (fun data kind => Draft.mk kind data)
      (record.ofMember · ("data", value)) hnew (fun _ _ _ _ h => (Draft.mk.inj h).symm)
      fun _ _ => rfl
  · rw [takes_concat_of_ne htype, takes_concat_of_ne hdata]
    simp [ofMember_of_ne htype hdata]

end

/-- **All members**, read in turn, each name once. -/
theorem foldlM_ofMember_eq_ok_iff {members : List (String × Json)}
    (hdistinct : (members.map Prod.fst).Nodup) (draft : Draft) :
    members.foldlM record.ofMember {} = .ok draft ↔ draft.Holds members := by
  -- from the front: the last member has a new name
  induction members using List.reverseRecOn generalizing draft with
  | nil =>
    constructor
    · intro h
      obtain rfl : {} = draft := Except.ok.inj h
      exact ⟨.none, .none⟩
    · rintro ⟨hkind, hdata⟩
      obtain ⟨kind, data⟩ := draft
      cases hkind
      cases hdata
      rfl
  | append_singleton members member ih =>
    have hmembers : (members.map Prod.fst).Nodup := by
      rw [List.map_append] at hdistinct
      exact (List.nodup_append.mp hdistinct).1
    rw [foldlM_concat_eq_ok_iff, holds_concat_iff (not_mem_keys_of_nodup hdistinct)]
    exact exists_congr fun before => and_congr_left fun _ => ih hmembers before

/-- A draft is a node once it has a type. -/
theorem finish_eq_ok_iff {draft : Draft} {n : Node} :
    record.finish draft = .ok n ↔ draft.kind = some n.kind ∧ draft.data.getD ∅ = n.data := by
  obtain ⟨kind, data⟩ := draft
  cases kind with
  | none =>
    constructor
    · intro h
      cases h
    · rintro ⟨h, -⟩
      cases h
  | some kind =>
    show (Except.ok ⟨kind, data.getD ∅⟩ : Except Json.Mismatch Node) = .ok n ↔ _
    rw [Except.ok.injEq, Node.ext_iff, Option.some.injEq]

/-- The members that say what is in a node. No data is the same as empty data. -/
structure Shows (members : List (String × Json)) (n : Node) : Prop where
  kind : members.lookup "type" = some (.string n.kind)
  data : members.lookup "data" = none ∧ n.data = ∅ ∨
    members.lookup "data" = some (.object n.data.entries)

/-- **An object is read as a node** if its members say what is in it. -/
theorem ofValue_eq_ok_iff {members : List (String × Json)}
    (hdistinct : (members.map Prod.fst).Nodup)
    (hdata : ∀ entries, members.lookup "data" = some (.object entries) →
      (entries.map Prod.fst).Nodup) {n : Node} :
    form.ofValue (.object members) = .ok n ↔ Shows members n := by
  show members.foldlM record.ofMember {} >>= record.finish = .ok n ↔ _
  rw [bind_eq_ok_iff]
  constructor
  · -- what is read of a member says what the member is
    rintro ⟨⟨kind, data⟩, hdraft, hfinish⟩
    obtain ⟨hkind, hheld⟩ := (foldlM_ofMember_eq_ok_iff hdistinct _).mp hdraft
    obtain ⟨rfl, hnode⟩ := finish_eq_ok_iff.mp hfinish
    obtain ⟨value, htype, hread⟩ := takes_some_iff.mp hkind
    rw [ofValue_string_eq_ok_iff.mp hread] at htype
    refine ⟨htype, ?_⟩
    cases data with
    | none => exact .inl ⟨takes_none_iff.mp hheld, hnode.symm⟩
    | some data =>
      obtain rfl : data = n.data := hnode
      obtain ⟨value, hlookup, hread⟩ := takes_some_iff.mp hheld
      rw [ofValue_dict_eq_ok_iff fun entries h => hdata entries (h ▸ hlookup)] at hread
      exact .inr (hread ▸ hlookup)
  · -- the draft is the node, without data if there is no member for it
    rintro ⟨htype, hcases⟩
    have hkind : string.Takes members "type" (some n.kind) :=
      takes_some_iff.mpr ⟨_, htype, ofValue_string_eq_ok_iff.mpr rfl⟩
    rcases hcases with ⟨hnone, hempty⟩ | hsome
    · refine ⟨⟨some n.kind, none⟩, ?_, finish_eq_ok_iff.mpr ⟨rfl, hempty.symm⟩⟩
      exact (foldlM_ofMember_eq_ok_iff hdistinct _).mpr ⟨hkind, takes_none_iff.mpr hnone⟩
    · have hread : (dict Json.Form.value).ofValue (.object n.data.entries) = .ok n.data :=
        (ofValue_dict_eq_ok_iff fun _ h => Json.object.inj h ▸ n.data.distinct).mpr rfl
      refine ⟨⟨some n.kind, some n.data⟩, ?_, finish_eq_ok_iff.mpr ⟨rfl, rfl⟩⟩
      exact (foldlM_ofMember_eq_ok_iff hdistinct _).mpr
        ⟨hkind, takes_some_iff.mpr ⟨_, hsome, hread⟩⟩

/-! ## Written forms -/

/-- A node built member by member is its fields in their order. -/
theorem toValue_eq_toJson (n : Node) : n.toValue = n.toJson := by
  simp [toValue, toJson, Json.ofDict, Dict.insert, putEntry, EmptyCollection.emptyCollection,
    Dict.empty]

/-- A node is read back from its fields. -/
theorem ofValue_toJson (n : Node) : form.ofValue n.toJson = .ok n := by
  refine (ofValue_eq_ok_iff ?_ ?_).mpr ⟨rfl, .inr rfl⟩
  · simp
  · intro entries hentries
    obtain rfl : n.data.entries = entries := Json.object.inj (Option.some.inj hentries)
    exact n.data.distinct

/-- A node whose data is set entry by entry. -/
def built (kind : String) (calls : List (String × Json)) : Node :=
  calls.foldl (fun n call => n.set call.1 call.2) { kind }

theorem toJson_foldl_set (n : Node) (calls : List (String × Json)) :
    (calls.foldl (fun n call => n.set call.1 call.2) n).toJson =
      .object [("type", .string n.kind), ("data", .object (putEntries n.data.entries calls))] := by
  induction calls generalizing n with
  | nil => rfl
  | cons call rest ih => exact ih (n.set call.1 call.2)

/-- A key that is set again keeps its place and takes the value that comes last. -/
theorem toJson_built (kind : String) (calls : List (String × Json)) :
    (built kind calls).toJson =
      .object [("type", .string kind), ("data", .object (merged calls))] := by
  rw [← putEntries_nil]
  exact toJson_foldl_set { kind } calls

/-! ## Both views -/

/-- The type that is seen is a text, and not empty. -/
theorem nodeKind?_eq_some_iff {members : List (String × Json)} {kind : String} :
    nodeKind? members = some kind ↔
      members.lookup "type" = some (.string kind) ∧ kind ≠ "" := by
  unfold nodeKind?
  constructor
  · intro h
    split at h
    · next found htype =>
      -- an empty type makes no node
      split at h
      · cases h
      · next hne =>
        obtain rfl : found = kind := Option.some.inj h
        exact ⟨htype, hne⟩
    · cases h
  · rintro ⟨htype, hne⟩
    rw [htype]
    exact if_neg hne

theorem isNode_object_iff {members : List (String × Json)} :
    isNode (.object members) = true ↔
      ∃ kind, members.lookup "type" = some (.string kind) ∧ kind ≠ "" := by
  rw [isNode_iff_view?, view?_object, Option.isSome_map, Option.isSome_iff_exists]
  exact exists_congr fun kind => nodeKind?_eq_some_iff

namespace Shows

variable {members : List (String × Json)} {n : Node}

theorem toJson (n : Node) : Shows [("type", .string n.kind), ("data", .ofDict n.data)] n :=
  ⟨rfl, .inr rfl⟩

theorem entries_eq (h : Shows members n) : (nodeData? members).getD [] = n.data.entries := by
  unfold nodeData?
  rcases h.data with ⟨hnone, hempty⟩ | hsome
  · rw [hnone, hempty]
    rfl
  · rw [hsome]
    rfl

theorem shape_eq (h : Shows members n) (hne : n.kind ≠ "") :
    Shape.of (.object members) = .node n.kind (nodeData? members) := by
  have hkind : nodeKind? members = some n.kind := nodeKind?_eq_some_iff.mpr ⟨h.kind, hne⟩
  simp only [Shape.of, hkind]

/-- What is rendered of the members of a node depends on the node only. -/
theorem renderValue_eq {α : Type} (r : Render.Renderer α) (h : Shows members n) :
    r.renderValue (.object members) =
      if n.kind = "" then pure (.placeholder (.notANode .object))
      else r.node ⟨n.kind, n.data.entries⟩ := by
  have hobject : ∀ items, Json.object members ≠ .array items := fun _ => Json.noConfusion
  rw [r.renderValue_of_not_array hobject]
  by_cases hempty : n.kind = ""
  · -- without a type the object is no node, although it is read as one
    have hkind : nodeKind? members = none := by
      unfold nodeKind?
      rw [h.kind]
      exact if_pos hempty
    have hother : Shape.of (.object members) = .other (.object members) := by
      simp only [Shape.of, hkind]
    rw [if_pos hempty]
    exact r.item_of_other hother
  · have hview : view? (.object members) = some ⟨n.kind, n.data.entries⟩ := by
      unfold view?
      rw [h.shape_eq hempty, ← h.entries_eq]
    rw [if_neg hempty]
    exact r.item_of_view? hview

end Shows

/-- An object says what is in a node with a type if it is seen as a node and has no data but an
object. -/
theorem exists_shows_iff {members : List (String × Json)}
    (hdata : ∀ entries, members.lookup "data" = some (.object entries) →
      (entries.map Prod.fst).Nodup) :
    (∃ n : Node, Shows members n ∧ n.kind ≠ "") ↔
      isNode (.object members) = true ∧
        ∀ value, members.lookup "data" = some value → value.kind = .object := by
  rw [isNode_object_iff]
  constructor
  · -- what shows has a type, and data that is an object if there is any
    rintro ⟨n, hshows, hne⟩
    refine ⟨⟨n.kind, hshows.kind, hne⟩, ?_⟩
    intro value hvalue
    rcases hshows.data with ⟨hnone, -⟩ | hsome
    · cases hnone.symm.trans hvalue
    · cases hsome.symm.trans hvalue
      rfl
  · rintro ⟨⟨kind, htype, hne⟩, hobject⟩
    -- without data the node has no entries
    cases hlookup : members.lookup "data" with
    | none => exact ⟨⟨kind, ∅⟩, ⟨htype, .inl ⟨hlookup, rfl⟩⟩, hne⟩
    | some value =>
      cases value with
      | object entries =>
        exact ⟨⟨kind, ⟨entries, hdata entries hlookup⟩⟩, ⟨htype, .inr hlookup⟩, hne⟩
      | _ => cases hobject _ hlookup

/-- **Looking at a node and reading it** come to the same. -/
theorem views_agree {α : Type} (r : Render.Renderer α) (members : List (String × Json))
    (hunrepeated : (Json.object members).Unrepeated) :
    ((∃ n, form.ofValue (.object members) = .ok n ∧ n.kind ≠ "") ↔
      isNode (.object members) = true ∧
        ∀ value, (Json.object members).get? "data" = some value → value.kind = .object) ∧
    (∀ n, form.ofValue (.object members) = .ok n →
      (n.kind ≠ "" → ∃ data, Shape.of (.object members) = .node n.kind data ∧
        data.getD [] = n.data.entries) ∧
      r.renderValue (.object members) = r.renderValue n.toValue) ∧
    (∀ n : Node, n.toValue = n.toJson ∧ form.ofValue n.toValue = .ok n ∧
      (n.kind ≠ "" → Shape.of n.toValue = .node n.kind (some n.data.entries))) ∧
    ∀ kind calls, (built kind calls).toValue =
      .object [("type", .string kind), ("data", .object (merged calls))] := by
  obtain ⟨hdistinct, hmembers⟩ : (members.map Prod.fst).Nodup ∧
      ∀ member ∈ members, member.2.Unrepeated := by
    -- the keys are distinct in the object itself, and in that of its data
    cases hunrepeated with
    | object hdistinct hmembers => exact ⟨hdistinct, hmembers⟩
  have hdata : ∀ entries, members.lookup "data" = some (.object entries) →
      (entries.map Prod.fst).Nodup := by
    intro entries hlookup
    cases hmembers _ (mem_of_lookup hlookup) with
    | object hentries _ => exact hentries
  have hread : ∀ n, form.ofValue (.object members) = .ok n ↔ Shows members n :=
    fun n => ofValue_eq_ok_iff hdistinct hdata
  refine ⟨?_, ?_, ?_, ?_⟩
  · simp only [hread]
    exact exists_shows_iff hdata
  · -- what is read shows the object, and rendering needs no more of it
    intro n hn
    have hshows : Shows members n := (hread n).mp hn
    refine ⟨fun hne => ⟨_, hshows.shape_eq hne, hshows.entries_eq⟩, ?_⟩
    rw [toValue_eq_toJson, hshows.renderValue_eq r]
    exact ((Shows.toJson n).renderValue_eq r).symm
  · intro n
    rw [toValue_eq_toJson]
    exact ⟨rfl, ofValue_toJson n, (Shows.toJson n).shape_eq⟩
  · intro kind calls
    rw [toValue_eq_toJson, toJson_built]

/-- A node whose title is set twice. -/
def greeting : Node :=
  built "card" [("title", .null), ("type", .string "x"), ("title", .string "Hello")]

/-- A node among whose members are some of its own, and its data before its type. -/
def annotatedMembers : List (String × Json) :=
  [("id", .null), ("data", .object [("title", .string "Hello"), ("type", .string "x")]),
    ("type", .string "card")]

def textRenderer : Render.Renderer String where
  units := Render.plainText

theorem views_agree_annotatedMembers :
    (Json.object annotatedMembers).Unrepeated ∧
    form.ofValue (.object annotatedMembers) = .ok greeting ∧
    (isNode (.object annotatedMembers) = true ∧
      ∀ value, (Json.object annotatedMembers).get? "data" = some value → value.kind = .object) ∧
    textRenderer.renderValue (.object annotatedMembers) =
      textRenderer.renderValue greeting.toValue := by
  have hdata : (Json.object [("title", .string "Hello"), ("type", .string "x")]).Unrepeated := by
    refine .object (by decide) ?_
    simp [Json.Unrepeated.string]
  have hunrepeated : (Json.object annotatedMembers).Unrepeated := by
    refine .object (by decide) ?_
    simp [annotatedMembers, Json.Unrepeated.string, Json.Unrepeated.null, hdata]
  have hread : form.ofValue (.object annotatedMembers) = .ok greeting := rfl
  obtain ⟨hseen, hshown, -⟩ := views_agree textRenderer annotatedMembers hunrepeated
  exact ⟨hunrepeated, hread, hseen.mp ⟨greeting, hread, by decide⟩, (hshown greeting hread).2⟩

end Mosaic.Composition.Node
