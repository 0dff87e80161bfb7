import Mosaic.Discovery.Extraction
import Mosaic.Proofs.Tsx.Exports

/-!
# Declarations of components

A source that exports an object as component metadata declares the component that the object
describes, with the texts and the schema down to each character and the order of all members.

* `Describes`: what a component takes from the members of an object.
* `describes_componentOf`: it is taken from there.
* `value_extract_eq_none_iff`: the texts that declare nothing.
* `extract_exportOf`: the component that such a source declares.
-/

namespace Mosaic.Discovery

open Files Registry
open Tsx (IsWord exportOf)

/-- What a component takes from an object: its type, its description and category where they are
texts and the category is not empty, and its schema. -/
structure Describes (members : List (String × Json)) (component : Component) : Prop where
  kind : members.lookup "type" = some (.string component.kind)
  description : ∀ text, members.lookup "description" = some (.string text) →
    component.description = text
  noDescription : (∀ text, members.lookup "description" ≠ some (.string text)) →
    component.description = ""
  category : ∀ text, text ≠ "" → members.lookup "category" = some (.string text) →
    component.category = text
  noCategory : (∀ text, text ≠ "" → members.lookup "category" ≠ some (.string text)) →
    component.category = "general"
  schema : ∀ schema, members.lookup "schema" = some schema → component.schema = schema
  noSchema : members.lookup "schema" = none → component.schema = .null

variable {members : List (String × Json)} {kind name : String}

/-! ## Members -/

theorem stringMember?_eq_some_iff {key text : String} :
    stringMember? members key = some text ↔ members.lookup key = some (.string text) := by
  rw [stringMember?, Option.bind_eq_some_iff]
  constructor
  · rintro ⟨value, hvalue, htext⟩
    cases value with
    | string s =>
      obtain rfl : s = text := Option.some.inj htext
      exact hvalue
    | _ => cases htext
  · exact fun h => ⟨_, h, rfl⟩

theorem declaredType?_eq_some (hkind : members.lookup "type" = some (.string kind))
    (hnonempty : kind ≠ "") : declaredType? members = some kind := by
  rw [declaredType?, stringMember?_eq_some_iff.mpr hkind, Option.filter_some,
    if_pos (decide_eq_true hnonempty)]

theorem describes_componentOf (hkind : members.lookup "type" = some (.string kind)) (file : Path) :
    Describes members (componentOf kind members file) where
  kind := hkind
  description text h := by
    rw [componentOf, stringMember?_eq_some_iff.mpr h]
    rfl
  noDescription h := by
    have hnone : stringMember? members "description" = none :=
      Option.eq_none_iff_forall_ne_some.mpr fun text htext => h text (stringMember?_eq_some_iff.mp htext)
    rw [componentOf, hnone]
    rfl
  -- an empty category counts as none
  category text hne h := by
    rw [componentOf, stringMember?_eq_some_iff.mpr h, Option.filter_some,
      if_pos (decide_eq_true hne)]
    rfl
  noCategory h := by
    have hnone : (stringMember? members "category").filter (· ≠ "") = none := by
      rw [Option.filter_eq_none_iff]
      intro text htext hne
      exact h text (of_decide_eq_true hne) (stringMember?_eq_some_iff.mp htext)
    rw [componentOf, hnone]
    rfl
  schema schema h := by
    rw [componentOf, h]
    rfl
  noSchema h := by
    rw [componentOf, h]
    rfl

/-! ## Sources that declare nothing -/

/-- An object without a type describes no component, nor does another value. -/
theorem value_describe_eq_none_iff {file root : Path} {value : Json} :
    (describe file root value).value = none ↔
      ∀ members, value = .object members → declaredType? members = none := by
  cases value with
  | object members =>
    rw [describe]
    cases hkind : declaredType? members with
    | none =>
      refine iff_of_true rfl ?_
      rintro _ ⟨rfl⟩
      exact hkind
    | some kind =>
      refine iff_of_false (Option.some_ne_none _) fun h => ?_
      rw [h members rfl] at hkind
      cases hkind
  | null | bool | number | string | array => exact iff_of_true rfl (by simp)

theorem value_describeFirst_eq_none_iff {file root : Path} {values : List Json} :
    (describeFirst file root values).value = none ↔
      ∀ members, Json.object members ∈ values → declaredType? members = none := by
  induction values with
  | nil => exact iff_of_true rfl (by simp)
  | cons value rest ih =>
    rw [describeFirst, Traced.value_bind]
    -- a value that describes nothing is passed over
    cases hvalue : (describe file root value).value with
    | none =>
      have hnone := value_describe_eq_none_iff.mp hvalue
      show (describeFirst file root rest).value = none ↔ _
      rw [ih]
      simp only [List.mem_cons]
      exact ⟨fun h members hmembers => hmembers.elim (fun heq => hnone members heq.symm) (h members),
        fun h members hmembers => h members (.inr hmembers)⟩
    | some component =>
      refine iff_of_false (Option.some_ne_none _) fun h => ?_
      have hnone : (describe file root value).value = none :=
        value_describe_eq_none_iff.mpr fun members heq => h members (heq ▸ List.mem_cons_self ..)
      rw [hvalue] at hnone
      cases hnone

/-- A text declares nothing if it has a syntax error, or if none of the metadata that it exports has
a type. -/
theorem value_extract_eq_none_iff {text : String} {file root : Path} :
    (extract text file root).value = none ↔
      Tsx.Program.parse? text = none ∨
        ∃ program, Tsx.Program.parse? text = some program ∧
          ∀ members, Json.object members ∈ program.flatMap exportedValues →
            declaredType? members = none := by
  rw [extract]
  cases Tsx.Program.parse? text with
  | none => exact iff_of_true rfl (.inl rfl)
  | some program =>
    show (describeFirst file root (program.flatMap exportedValues)).value = none ↔ _
    rw [value_describeFirst_eq_none_iff]
    simp

/-! ## Sources -/

/-- No keyword is a name for component metadata. -/
theorem not_reserved_of_isMetadataName (h : isMetadataName name = true) :
    Tsx.reservedWords.contains name = false := by
  have hall : ∀ w ∈ Tsx.reservedWords, isMetadataName w = false := by decide
  rw [← Bool.not_eq_true, List.contains_iff_mem]
  intro hmem
  rw [hall name hmem] at h
  cases h

/-- What a source declares that exports an object with a type as component metadata. -/
theorem value_extract_exportOf (hword : IsWord name) (hname : isMetadataName name = true)
    (hvalue : Json.Integral Tsx.Expr.IsExact (.object members))
    (hkind : members.lookup "type" = some (.string kind)) (hnonempty : kind ≠ "")
    (file root : Path) :
    (extract (exportOf name (.object members)) file root).value =
      some (componentOf kind members (file.relativeTo root)) := by
  have hprogram := Tsx.parse?_exportOf hword (not_reserved_of_isMetadataName hname) hvalue
  have hmetadata : metadataValue? ⟨some name, some (.ofJson (.object members))⟩ =
      some (.object members) := by
    rw [metadataValue?]
    dsimp only
    rw [if_pos hname, Tsx.Expr.evaluate_literal_ofJson hvalue]
  -- the source has one statement, which exports one value
  have hvalues : [Tsx.Statement.exportedVariables
      [⟨some name, some (.ofJson (.object members))⟩]].flatMap exportedValues =
        [.object members] := by
    simp [exportedValues, hmetadata]
  have hdescribed : (describe file root (.object members)).value =
      some (componentOf kind members (file.relativeTo root)) := by
    rw [describe, declaredType?_eq_some hkind hnonempty]
    rfl
  rw [extract, hprogram]
  dsimp only
  rw [ofProgram, hvalues, describeFirst, Traced.value_bind, hdescribed]
  rfl

/-- **A source that exports an object** with a type as component metadata declares the component
that the object describes. -/
theorem extract_exportOf (hword : IsWord name) (hname : isMetadataName name = true)
    (hvalue : Json.Integral Tsx.Expr.IsExact (.object members))
    (hkind : members.lookup "type" = some (.string kind)) (hnonempty : kind ≠ "")
    (file root : Path) :
    ∃ component, (extract (exportOf name (.object members)) file root).value = some component ∧
      Describes members component ∧ component.kind = kind ∧
      component.file = file.relativeTo root ∧ component.source = "" := by
  have hdeclared := value_extract_exportOf hword hname hvalue hkind hnonempty file root
  exact ⟨_, hdeclared, describes_componentOf hkind _, rfl, rfl, rfl⟩

/-- The members of a declaration with texts and numbers at the limits. -/
def cardMembers : List (String × Json) :=
  [("schema", .object [("b", .array [.number (.int (1 - 2 ^ 63)), .null, .bool false]),
    ("a\x00\t\"\\", .object []), ("", .number (.int 0))]), ("category", .string ""),
    ("type", .string "card"), ("description", .number (.int 7))]

theorem integral_cardMembers : Json.Integral Tsx.Expr.IsExact (.object cardMembers) := by
  have hlimits : Json.Integral Tsx.Expr.IsExact
      (.array [.number (.int (1 - 2 ^ 63)), .null, .bool false]) := by
    refine .array ?_
    simp only [List.forall_mem_cons]
    exact ⟨.number (by decide), .null, .bool false, by simp⟩
  have hschema : Json.Integral Tsx.Expr.IsExact
      (.object [("b", .array [.number (.int (1 - 2 ^ 63)), .null, .bool false]),
        ("a\x00\t\"\\", .object []), ("", .number (.int 0))]) := by
    refine .object (by decide) ?_
    simp only [List.forall_mem_cons]
    exact ⟨hlimits, .object (by decide) (by simp), .number (by decide), by simp⟩
  refine .object (by decide) ?_
  simp only [cardMembers, List.forall_mem_cons]
  exact ⟨hschema, .string _, .string _, .number (by decide), by simp⟩

/-- A declaration without a text for its description and with an empty category. -/
theorem extract_exportOf_cardMembers :
    IsWord "CardMetadata" ∧ isMetadataName "CardMetadata" = true ∧
    Json.Integral Tsx.Expr.IsExact (.object cardMembers) ∧
    ∃ component, (extract (exportOf "CardMetadata" (.object cardMembers)) "/app/card.tsx"
        "/app").value = some component ∧
      Describes cardMembers component ∧ component.kind = "card" ∧
      component.file = Path.relativeTo "/app/card.tsx" "/app" ∧ component.source = "" := by
  have hword : IsWord "CardMetadata" := by decide
  have hname : isMetadataName "CardMetadata" = true := by decide
  exact ⟨hword, hname, integral_cardMembers,
    extract_exportOf hword hname integral_cardMembers rfl (by decide) "/app/card.tsx" "/app"⟩

end Mosaic.Discovery
