import Mathlib.Data.List.Basic
import Mosaic.Registry.Instructions

/-!
# What the instructions offer

The instructions list component types and show examples of compositions. An agent that follows
both stays with known types only if every type in an example is a listed one. If types are asked
for, the examples use these. Otherwise they always use the same three types, whatever is listed.

* `available`: the types that are listed.
* `Offers`: a text that lists some types, and shows examples with some types.
* `offers_instructions`: the instructions, and when their examples stay with the listed types.
* `used_not_available`: they do not if no component is known.
-/

namespace Mosaic.Registry.Instructions

/-! ## Texts with a list and examples -/

/-- A line of the list: a type, and what is said of it. -/
def listLine (entry : String × String) : String := s!"{entry.1}: {entry.2}"

/-- The text lists exactly the given types, in this order, and its examples have types in the
given roles. -/
def Offers (content : String) (types : List String) (r : Roles) : Prop :=
  ∃ list : List (String × String), list.map Prod.fst = types ∧ content = text (list.map listLine) r

/-- The types in the examples: one in the first, and two in each of the other three. -/
def Roles.used (r : Roles) : List String :=
  [r.first, r.first, r.second, r.first, r.first, r.first, r.third]

/-- The types that may be used: those asked for, else those of the manifest, else the type that is
offered when no other is known. -/
def available (manifest : Option Manifest) (only : List String) : List String :=
  let known := (manifest.map Manifest.types).getD []
  if only ≠ [] then only else if known ≠ [] then known else ["markdown"]

/-! ## The list -/

/-- The line of a registered component begins with its type. -/
theorem exists_entrySpec_eq (kind : String) (entry : Entry) :
    ∃ about, entrySpec kind entry = listLine (kind, about) := by
  unfold entrySpec
  dsimp only
  split
  · exact ⟨entry.description, rfl⟩
  · -- what is said of the component is its description with its key properties
    refine ⟨entry.description ++ " (uses: " ++
      ", ".intercalate ((Schema.ofJson entry.schema).keyProperties keyPropertyLimit) ++ ")", ?_⟩
    simp only [listLine, toString, String.append_assoc]

/-- Lines that each begin with a type are the lines of some list of these types. -/
theorem exists_list_of_lines {α : Type} {kind : α → String} {line : α → String}
    (h : ∀ a, ∃ about, line a = listLine (kind a, about)) (xs : List α) :
    ∃ list : List (String × String),
      list.map Prod.fst = xs.map kind ∧ xs.map line = list.map listLine := by
  choose about habout using h
  refine ⟨xs.map fun a => (kind a, about a), ?_, ?_⟩
  · rw [List.map_map]
    rfl
  · rw [List.map_map]
    exact List.map_congr_left fun a _ => habout a

theorem value_instructions (manifest : Option Manifest) (only : List String) :
    (instructions manifest only).value =
      text (if specs manifest only = [] then [fallback] else specs manifest only) (roles only) := by
  unfold instructions
  split
  · next hnone =>
    rw [if_pos hnone]
    rfl
  · next hsome =>
    rw [if_neg hsome]
    rfl

/-- The lines that are listed begin with the available types. -/
theorem exists_list_eq (manifest : Option Manifest) (only : List String) :
    ∃ list : List (String × String), list.map Prod.fst = available manifest only ∧
      (if specs manifest only = [] then [fallback] else specs manifest only) =
        list.map listLine := by
  have hfallback : fallback = listLine ("markdown", "Text content with formatting") := rfl
  cases only with
  | cons first rest =>
    -- the same is said of all types that are asked for
    have hline : ∀ kind : String, ∃ about,
        s!"{kind}: Available component" = listLine (kind, about) := by
      intro kind
      refine ⟨"Available component", ?_⟩
      show kind ++ ": Available component" = kind ++ ": " ++ "Available component"
      rw [String.append_assoc]
      rfl
    obtain ⟨list, hkinds, hlines⟩ := exists_list_of_lines hline (first :: rest)
    rw [List.map_id'] at hkinds
    exact ⟨list, hkinds, hlines⟩
  | nil =>
    cases manifest with
    | none => exact ⟨[("markdown", "Text content with formatting")], rfl, by rw [hfallback]; rfl⟩
    | some m =>
      by_cases hentries : m.components.entries = []
      · -- a manifest without components is as good as none
        refine ⟨[("markdown", "Text content with formatting")], ?_, ?_⟩
        · simp [available, Manifest.types, Dict.keys, hentries]
        · simp [specs, hentries, hfallback]
      · obtain ⟨list, hkinds, hlines⟩ := exists_list_of_lines
          (fun entry : String × Entry => exists_entrySpec_eq entry.1 entry.2) m.components.entries
        refine ⟨list, ?_, ?_⟩
        · rw [hkinds]
          simp [available, Manifest.types, Dict.keys, hentries]
        · rw [← hlines]
          simp [specs, hentries]

/-! ## The examples -/

/-- The roles are played by types that were asked for, if any were. -/
theorem used_subset_of_ne_nil {only : List String} (h : only ≠ []) :
    ∀ kind ∈ (roles only).used, kind ∈ only := by
  match only with
  | [a] => simp [roles, Roles.used]
  | [a, b] => simp [roles, Roles.used]
  | a :: b :: c :: rest => simp [roles, Roles.used]

/-- Without types asked for, the examples always have the same types. -/
theorem mem_used_nil {kind : String} :
    kind ∈ (roles []).used ↔ kind ∈ ["card", "table", "markdown"] := by
  simp [roles, Roles.used]
  tauto

/-- **The instructions** list the available types. The types in their examples are among these
exactly if types were asked for, or if the manifest has the three types that stand in the examples
otherwise. -/
theorem offers_instructions (manifest : Option Manifest) (only : List String) :
    Offers (instructions manifest only).value (available manifest only) (roles only) ∧
      ((∀ kind ∈ (roles only).used, kind ∈ available manifest only) ↔
        only ≠ [] ∨
          ∃ m, manifest = some m ∧ ∀ kind ∈ ["card", "table", "markdown"], kind ∈ m.types) := by
  constructor
  · obtain ⟨list, hkinds, hlines⟩ := exists_list_eq manifest only
    exact ⟨list, hkinds, by rw [value_instructions, hlines]⟩
  · -- without a selection the examples are fixed, and used whether or not they are available
    by_cases honly : only = []
    · subst honly
      simp only [mem_used_nil, ne_eq, not_true_eq_false, false_or]
      cases manifest with
      | none => simp [available]
      | some m =>
        by_cases htypes : m.types = []
        · simp [available, htypes]
        · simp [available, htypes]
    · have havailable : available manifest only = only := by
        unfold available
        exact if_pos honly
      rw [havailable]
      exact iff_of_true (used_subset_of_ne_nil honly) (.inl honly)

/-- Without a manifest only markdown is listed, but the first example is a card. -/
theorem used_not_available :
    (instructions none []).value =
        text ["markdown: Text content with formatting"] ⟨"card", "table", "markdown"⟩ ∧
      available none [] = ["markdown"] ∧
      "card" ∈ (roles []).used ∧ "card" ∉ available none [] :=
  ⟨rfl, rfl, by decide, by decide⟩

end Mosaic.Registry.Instructions
