import Mathlib
import Mosaic.Proofs.Discovery.Extraction

/-!
# The first declaration of a source

A source declares a component through the first of its exported variables that can be one: with a
plain name for metadata and an object with a type for its value. Variables that cannot be one do
not end the search, in their own statement or in later ones, and whatever else stands in the source
does not matter.

* `Declares`: a variable that declares a component.
* `value_ofProgram_eq_some_iff`, `value_ofProgram_eq_none_iff`: the first one in document order.
* `Edit`: statements or variables are replaced by others while neither of them count.
* `value_ofProgram_edited`: the first declaration stays what it was.
* `value_extract_eq_first`: the same from the text of a source.
-/

namespace Mosaic.Discovery

open Files Registry
open Tsx (Declarator Program Statement)

/-! ## Variables that declare a component -/

/-- A variable with a plain name for metadata whose value is an object with a type. -/
inductive Declares : Declarator → List (String × Json) → Prop
  | intro {name kind : String} {value : Tsx.Expr} {members : List (String × Json)} :
      name = "metadata" ∨ "Metadata".toList <:+ name.toList →
      value.literal.evaluate = .object members →
      members.lookup "type" = some (.string kind) → kind ≠ "" →
      Declares ⟨some name, some value⟩ members

/-- Whether a variable declares a component. -/
def IsDeclaration (declarator : Declarator) : Prop := ∃ members, Declares declarator members

/-- The name of metadata is `metadata`, or ends in `Metadata`. -/
theorem isMetadataName_iff {name : String} :
    isMetadataName name = true ↔ name = "metadata" ∨ "Metadata".toList <:+ name.toList := by
  rw [isMetadataName, Bool.or_eq_true, List.isSuffixOf_iff_suffix, decide_eq_true_iff, or_comm]

/-- The type of a component is a text that is not empty. -/
theorem declaredType?_eq_some_iff {members : List (String × Json)} {kind : String} :
    declaredType? members = some kind ↔
      members.lookup "type" = some (.string kind) ∧ kind ≠ "" := by
  rw [declaredType?, Option.filter_eq_some_iff, stringMember?_eq_some_iff, decide_eq_true_iff]

/-- Only objects with a type describe a component. -/
theorem value_describe_eq_some_iff {file root : Path} {value : Json} {component : Component} :
    (describe file root value).value = some component ↔
      ∃ members kind, value = .object members ∧ members.lookup "type" = some (.string kind) ∧
        kind ≠ "" ∧ component = componentOf kind members (file.relativeTo root) := by
  constructor
  · intro h
    cases value with
    | object members =>
      rw [describe] at h
      cases hkind : declaredType? members with
      | none =>
        rw [hkind] at h
        cases h
      | some kind =>
        rw [hkind] at h
        obtain ⟨htype, hnonempty⟩ := declaredType?_eq_some_iff.mp hkind
        exact ⟨members, kind, rfl, htype, hnonempty, (Option.some.inj h).symm⟩
    | _ => cases h
  · rintro ⟨members, kind, rfl, htype, hnonempty, rfl⟩
    rw [describe, declaredType?_eq_some htype hnonempty]
    rfl

/-- What a component is told by the object that describes it and by where it stands. -/
theorem Describes.eq_componentOf {members : List (String × Json)} {component : Component}
    {file : Path} (h : Describes members component) (hfile : component.file = file)
    (hsource : component.source = "") : component = componentOf component.kind members file := by
  have hof := describes_componentOf h.kind file
  -- what the members do not say, both have by default
  refine Component.ext rfl ?_ ?_ ?_ hfile hsource
  · by_cases htext : ∃ text, members.lookup "description" = some (.string text)
    · obtain ⟨text, htext⟩ := htext
      rw [h.description text htext, hof.description text htext]
    · rw [not_exists] at htext
      rw [h.noDescription htext, hof.noDescription htext]
  · cases hschema : members.lookup "schema" with
    | some schema => rw [h.schema schema hschema, hof.schema schema hschema]
    | none => rw [h.noSchema hschema, hof.noSchema hschema]
  · by_cases htext : ∃ text, text ≠ "" ∧ members.lookup "category" = some (.string text)
    · obtain ⟨text, hnonempty, htext⟩ := htext
      rw [h.category text hnonempty htext, hof.category text hnonempty htext]
    · have hnone : ∀ text, text ≠ "" → members.lookup "category" ≠ some (.string text) :=
        fun text hnonempty hlookup => htext ⟨text, hnonempty, hlookup⟩
      rw [h.noCategory hnone, hof.noCategory hnone]

/-- The component that a variable declares. -/
def declared? (file root : Path) (declarator : Declarator) : Option Component :=
  (metadataValue? declarator).bind fun value => (describe file root value).value

/-- The value of a variable is metadata if the variable is called so, and has a value. -/
theorem metadataValue?_eq_some_iff {declarator : Declarator} {value : Json} :
    metadataValue? declarator = some value ↔ ∃ name initializer,
      declarator = ⟨some name, some initializer⟩ ∧ isMetadataName name = true ∧
        initializer.literal.evaluate = value := by
  obtain ⟨name?, initializer?⟩ := declarator
  constructor
  · intro h
    cases name? with
    | none => cases h
    | some name =>
      cases initializer? with
      | none => cases h
      | some initializer =>
        rw [metadataValue?, Option.ite_none_right_eq_some] at h
        exact ⟨name, initializer, rfl, h.1, Option.some.inj h.2⟩
  · rintro ⟨name, initializer, heq, hname, rfl⟩
    rw [heq, metadataValue?]
    dsimp only
    rw [if_pos hname]

/-- **A variable declares a component** if its value is an object with a type, and the component is
the one that the object describes. -/
theorem declared?_eq_some_iff {file root : Path} {declarator : Declarator}
    {component : Component} :
    declared? file root declarator = some component ↔
      ∃ members, Declares declarator members ∧ Describes members component ∧
        component.file = file.relativeTo root ∧ component.source = "" := by
  rw [declared?, Option.bind_eq_some_iff]
  constructor
  · rintro ⟨value, hvalue, hdescribe⟩
    obtain ⟨name, initializer, rfl, hname, rfl⟩ := metadataValue?_eq_some_iff.mp hvalue
    obtain ⟨members, kind, hmembers, htype, hnonempty, rfl⟩ :=
      value_describe_eq_some_iff.mp hdescribe
    exact ⟨members, .intro (isMetadataName_iff.mp hname) hmembers htype hnonempty,
      describes_componentOf htype _, rfl, rfl⟩
  · rintro ⟨members, hdeclares, hdescribes, hfile, hsource⟩
    cases hdeclares with
    | @intro name kind initializer members hname hmembers htype hnonempty =>
      refine ⟨.object members, metadataValue?_eq_some_iff.mpr
        ⟨name, initializer, rfl, isMetadataName_iff.mpr hname, hmembers⟩, ?_⟩
      -- the type of the component is the one that the object has
      obtain rfl : kind = component.kind :=
        Json.string.inj (Option.some.inj (htype.symm.trans hdescribes.kind))
      exact value_describe_eq_some_iff.mpr ⟨members, _, rfl, htype, hnonempty,
        hdescribes.eq_componentOf hfile hsource⟩

/-- A variable declares nothing if its value does not say what it is. -/
theorem declared?_eq_none_iff {file root : Path} {declarator : Declarator} :
    declared? file root declarator = none ↔ ¬ IsDeclaration declarator := by
  constructor
  · rintro h ⟨members, hdeclares⟩
    cases hdeclares with
    | @intro name kind initializer members hname hmembers htype hnonempty =>
      have hsome := declared?_eq_some_iff.mpr
        ⟨members, .intro hname hmembers htype hnonempty,
          describes_componentOf htype (file.relativeTo root), rfl, rfl⟩
      rw [h] at hsome
      cases hsome
  · intro h
    refine Option.eq_none_iff_forall_ne_some.mpr fun component hcomponent => h ?_
    obtain ⟨members, hdeclares, -⟩ := declared?_eq_some_iff.mp hcomponent
    exact ⟨members, hdeclares⟩

/-! ## The first one of a program -/

/-- The exported variables of a program in document order. -/
def declarators (program : Program) : List Declarator :=
  program.flatMap fun
    | .exportedVariables declarators => declarators
    | .other => []

/-- The exported values are those of the declared variables, in their order. -/
theorem flatMap_exportedValues (program : Program) :
    program.flatMap exportedValues = (declarators program).filterMap metadataValue? := by
  rw [declarators, List.filterMap_flatMap]
  refine List.flatMap_congr fun statement _ => ?_
  cases statement <;> rfl

/-- The first value that describes a component decides. -/
theorem value_describeFirst (file root : Path) (values : List Json) :
    (describeFirst file root values).value =
      values.findSome? fun value => (describe file root value).value := by
  induction values with
  | nil => rfl
  | cons value rest ih =>
    rw [describeFirst, Traced.value_bind, List.findSome?_cons]
    cases (describe file root value).value with
    | none => exact ih
    | some component => rfl

/-- A program declares what the first of its variables that declares anything declares. -/
theorem value_ofProgram (program : Program) (file root : Path) :
    (ofProgram program file root).value =
      (declarators program).findSome? (declared? file root) := by
  rw [ofProgram, value_describeFirst, flatMap_exportedValues, ← List.head?_filterMap,
    List.filterMap_filterMap, List.head?_filterMap]
  rfl

/-- **The component of a program** is the one that its first declaration declares. -/
theorem value_ofProgram_eq_some_iff {program : Program} {file root : Path}
    {component : Component} :
    (ofProgram program file root).value = some component ↔
      ∃ before declarator after members, declarators program = before ++ declarator :: after ∧
        (∀ earlier ∈ before, ¬ IsDeclaration earlier) ∧ Declares declarator members ∧
        Describes members component ∧ component.file = file.relativeTo root ∧
        component.source = "" := by
  rw [value_ofProgram, List.findSome?_eq_some_iff]
  constructor
  · rintro ⟨before, declarator, after, hsplit, hdeclared, hbefore⟩
    obtain ⟨members, hdeclares, hcomponent⟩ := declared?_eq_some_iff.mp hdeclared
    exact ⟨before, declarator, after, members, hsplit,
      fun earlier hearlier => declared?_eq_none_iff.mp (hbefore earlier hearlier),
      hdeclares, hcomponent⟩
  · rintro ⟨before, declarator, after, members, hsplit, hbefore, hdeclares, hcomponent⟩
    exact ⟨before, declarator, after, hsplit,
      declared?_eq_some_iff.mpr ⟨members, hdeclares, hcomponent⟩,
      fun earlier hearlier => declared?_eq_none_iff.mpr (hbefore earlier hearlier)⟩

/-- **A program without a declaration** has no component. -/
theorem value_ofProgram_eq_none_iff {program : Program} {file root : Path} :
    (ofProgram program file root).value = none ↔
      ∀ declarator ∈ declarators program, ¬ IsDeclaration declarator := by
  rw [value_ofProgram, List.findSome?_eq_none_iff]
  exact forall₂_congr fun _ _ => declared?_eq_none_iff

/-! ## Edits beside it -/

/-- Variables that do not count where they stand: none of them declares a component, or one before
them does. -/
def AreIdle (before declarators : List Declarator) : Prop :=
  (∀ declarator ∈ declarators, ¬ IsDeclaration declarator) ∨
    ∃ declarator ∈ before, IsDeclaration declarator

/-- Statements, or variables of one statement, take the place of others, and neither of them count.
Nothing takes the place of what is deleted, and what is inserted takes the place of nothing. -/
inductive Edit : Program → Program → Prop
  | between (before old new after : Program) :
      AreIdle (declarators before) (declarators old) →
      AreIdle (declarators before) (declarators new) →
      Edit (before ++ old ++ after) (before ++ new ++ after)
  | within (before after : Program) (front old new back : List Declarator) :
      AreIdle (declarators before ++ front) old → AreIdle (declarators before ++ front) new →
      Edit (before ++ .exportedVariables (front ++ old ++ back) :: after)
        (before ++ .exportedVariables (front ++ new ++ back) :: after)

/-- Variables that do not count can be left out. -/
theorem findSome?_of_areIdle {before idle : List Declarator} (h : AreIdle before idle)
    (after : List Declarator) (file root : Path) :
    (before ++ idle ++ after).findSome? (declared? file root) =
      (before ++ after).findSome? (declared? file root) := by
  rw [List.findSome?_append, List.findSome?_append, List.findSome?_append]
  rcases h with hnone | ⟨declarator, hmem, hdeclaration⟩
  · have hidle : idle.findSome? (declared? file root) = none :=
      List.findSome?_eq_none_iff.mpr fun declarator hmem =>
        declared?_eq_none_iff.mpr (hnone declarator hmem)
    rw [hidle, Option.or_none]
  · -- the search has ended before
    have hbefore : before.findSome? (declared? file root) ≠ none := fun hbefore =>
      declared?_eq_none_iff.mp (List.findSome?_eq_none_iff.mp hbefore declarator hmem) hdeclaration
    obtain ⟨component, hcomponent⟩ := Option.ne_none_iff_exists'.mp hbefore
    rw [hcomponent]
    rfl

/-- The variables of a program are those of its statements, one after the other. -/
theorem declarators_append (program rest : Program) :
    declarators (program ++ rest) = declarators program ++ declarators rest :=
  List.flatMap_append

theorem declarators_cons_exported (found : List Declarator) (rest : Program) :
    declarators (.exportedVariables found :: rest) = found ++ declarators rest := rfl

/-- **One edit** beside the first declaration. -/
theorem Edit.value_ofProgram_eq {program edited : Program} (h : Edit program edited)
    (file root : Path) :
    (ofProgram edited file root).value = (ofProgram program file root).value := by
  rw [value_ofProgram, value_ofProgram]
  cases h with
  | between before old new after hold hnew =>
    simp only [declarators_append]
    rw [findSome?_of_areIdle hnew, findSome?_of_areIdle hold]
  | within before after front old new back hold hnew =>
    have hsplit : ∀ found, declarators
        (before ++ .exportedVariables (front ++ found ++ back) :: after) =
          (declarators before ++ front) ++ found ++ (back ++ declarators after) := by
      intro found
      simp only [declarators_append, declarators_cons_exported, List.append_assoc]
    rw [hsplit, hsplit, findSome?_of_areIdle hnew, findSome?_of_areIdle hold]

/-- **Edits of what is no declaration** do not change what a program declares. -/
theorem value_ofProgram_edited {program edited : Program}
    (h : Relation.ReflTransGen Edit program edited) (file root : Path) :
    (ofProgram edited file root).value = (ofProgram program file root).value := by
  induction h with
  | refl => rfl
  | tail _ hedit ih => exact (hedit.value_ofProgram_eq file root).trans ih

/-! ## Sources -/

/-- What a text declares is what its program does. -/
theorem value_extract_of_parse {text : String} {program : Program}
    (h : Program.parse? text = some program) (file root : Path) :
    (extract text file root).value = (ofProgram program file root).value := by
  rw [extract, h]

/-- **The first declaration of a source counts.** A source with a syntax error declares nothing.
Any other one declares the component that the first of its variables which declares one describes,
if there is any, and goes on doing so however the rest of it is edited, as long as it has no syntax
error. -/
theorem value_extract_eq_first (text : String) (file root : Path) :
    (Program.parse? text = none → (extract text file root).value = none) ∧
    ∀ program, Program.parse? text = some program →
      (∀ component, (extract text file root).value = some component ↔
        ∃ before declarator after members, declarators program = before ++ declarator :: after ∧
          (∀ earlier ∈ before, ¬ IsDeclaration earlier) ∧ Declares declarator members ∧
          Describes members component ∧ component.file = file.relativeTo root ∧
          component.source = "") ∧
      ((extract text file root).value = none ↔
        ∀ declarator ∈ declarators program, ¬ IsDeclaration declarator) ∧
      ∀ text' edited, Program.parse? text' = some edited →
        Relation.ReflTransGen Edit program edited →
        (extract text' file root).value = (extract text file root).value := by
  refine ⟨fun h => ?_, fun program h => ?_⟩
  · rw [extract, h]
    rfl
  · -- what is extracted depends on the parsed program only
    rw [value_extract_of_parse h]
    refine ⟨fun component => value_ofProgram_eq_some_iff, value_ofProgram_eq_none_iff, ?_⟩
    intro text' edited h' hedits
    rw [value_extract_of_parse h', value_ofProgram_edited hedits]

/-! ### A declaration on its own and among others -/

/-- A variable that declares a card. -/
def cardVariable : Declarator :=
  ⟨some "metadata", some (.object [.pair (.name "type") (.string "card") []])⟩

/-- A source that exports the variable. -/
def cardSource : String := "export let metadata = \x7btype: 'card'\x7d;"

/-- A variable that is not exported, one without a plain name, and one without a type. -/
def crowdedSource : String :=
  "let metadata;\nexport let \x7bb\x7d = c, aMetadata = \x7b\x7d, metadata = \x7btype: 'card'\x7d;"

theorem parse?_cardSource :
    Program.parse? cardSource = some [.exportedVariables [cardVariable]] := by
  rw [cardSource, cardVariable]
  cbv

set_option maxRecDepth 4000 in
/-- A source with other statements and variables before it. -/
theorem parse?_crowdedSource :
    Program.parse? crowdedSource = some [.other, .exportedVariables
      [⟨none, some .opaqueNode⟩, ⟨some "aMetadata", some (.object [])⟩, cardVariable]] := by
  rw [crowdedSource, cardVariable]
  cbv

theorem declares_cardVariable : Declares cardVariable [("type", .string "card")] := by
  have htype : [("type", Json.string "card")].lookup "type" = some (.string "card") := rfl
  refine .intro (.inl rfl) ?_ htype (by decide)
  have hcard : Tsx.unescaped "card" = "card" := Tsx.unescaped_escaped "card"
  simp [Tsx.Expr.literal, Tsx.propertyLiterals, Tsx.Key.name?, hcard, Literal.Tree.evaluate,
    Literal.Tree.evaluateProperties, putEntry]

/-- A variable that binds a pattern declares nothing. -/
theorem not_isDeclaration_pattern (value : Option Tsx.Expr) : ¬ IsDeclaration ⟨none, value⟩ := by
  rintro ⟨members, hdeclares⟩
  cases hdeclares

/-- An object without members declares nothing. -/
theorem not_isDeclaration_empty (name : Option String) :
    ¬ IsDeclaration ⟨name, some (.object [])⟩ := by
  rintro ⟨members, hdeclares⟩
  cases hdeclares with
  | intro hname hmembers htype hnonempty =>
    simp only [Tsx.Expr.literal, Tsx.propertyLiterals, Literal.Tree.evaluate,
      Literal.Tree.evaluateProperties, Json.object.injEq] at hmembers
    subst hmembers
    cases htype

/-- The search goes past all of them. -/
theorem value_extract_crowdedSource (file root : Path) :
    Program.parse? cardSource = some [.exportedVariables [cardVariable]] ∧
    (∃ edited, Program.parse? crowdedSource = some edited ∧
      Relation.ReflTransGen Edit [.exportedVariables [cardVariable]] edited) ∧
    ∃ component, (extract crowdedSource file root).value = some component ∧
      component.kind = "card" := by
  have hedits : Relation.ReflTransGen Edit [.exportedVariables [cardVariable]]
      [.other, .exportedVariables
        [⟨none, some .opaqueNode⟩, ⟨some "aMetadata", some (.object [])⟩, cardVariable]] :=
    .tail (.single (.between [] [] [.other] [_] (.inl nofun) (.inl nofun)))
      (.within [.other] [] [] [] [_, _] [cardVariable] (.inl nofun) (.inl (by
        simp [not_isDeclaration_pattern, not_isDeclaration_empty])))
  obtain ⟨hsome, -, hedited⟩ :=
    (value_extract_eq_first cardSource file root).2 _ parse?_cardSource
  refine ⟨parse?_cardSource, ⟨_, parse?_crowdedSource, hedits⟩,
    componentOf "card" [("type", .string "card")] (file.relativeTo root), ?_, rfl⟩
  rw [hedited _ _ parse?_crowdedSource hedits, hsome]
  exact ⟨[], cardVariable, [], _, rfl, nofun, declares_cardVariable,
    describes_componentOf rfl _, rfl, rfl⟩

end Mosaic.Discovery
