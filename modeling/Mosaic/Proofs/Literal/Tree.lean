import Mosaic.Literal.Tree
import Mosaic.Proofs.Dict
import Mosaic.Proofs.Json.Spelling

/-!
# Values as literals

Every value is a literal. Evaluating the literal gives the value back, with all its members in
their order, as long as no key is repeated.

* `Tree.ofJson`: the literal that a value is.
* `evaluate_ofJson`: its value.
-/

namespace Mosaic

namespace Literal.Tree

mutual

/-- The literal that a value is. -/
def ofJson : Json → Tree
  | .null => .null
  | .bool b => .bool b
  | .number n => .number n
  | .string s => .string s
  | .array items => .array (ofItems items)
  | .object members => .object (ofMembers members)

def ofItems : List Json → List Tree
  | [] => []
  | item :: rest => ofJson item :: ofItems rest

def ofMembers : List (String × Json) → List (String × Option Tree)
  | [] => []
  | (key, value) :: rest => (key, some (ofJson value)) :: ofMembers rest

end

theorem ofItems_eq_map (items : List Json) : ofItems items = items.map ofJson := by
  induction items with
  | nil => rw [ofItems, List.map_nil]
  | cons item rest ih => rw [ofItems, ih, List.map_cons]

theorem ofMembers_eq_map (members : List (String × Json)) :
    ofMembers members = members.map fun member => (member.1, some (ofJson member.2)) := by
  induction members with
  | nil => rw [ofMembers, List.map_nil]
  | cons member rest ih => rw [ofMembers, ih, List.map_cons]

theorem isUnsupported_ofJson (value : Json) : (ofJson value).isUnsupported = false := by
  cases value <;> (rw [ofJson]; rfl)

theorem evaluateElements_ofItems {items : List Json}
    (h : ∀ item ∈ items, (ofJson item).evaluate = item) :
    evaluateElements (ofItems items) = items := by
  induction items with
  | nil => rw [ofItems, evaluateElements]
  | cons item rest ih =>
    rw [List.forall_mem_cons] at h
    rw [ofItems, evaluateElements, isUnsupported_ofJson, if_neg Bool.false_ne_true, h.1, ih h.2]

/-- Properties with new keys are added to the members before them. -/
theorem evaluateProperties_ofMembers {members seen : List (String × Json)}
    (hnodup : ((seen ++ members).map Prod.fst).Nodup)
    (h : ∀ member ∈ members, (ofJson member.2).evaluate = member.2) :
    evaluateProperties seen (ofMembers members) = seen ++ members := by
  induction members generalizing seen with
  | nil => rw [ofMembers, evaluateProperties, List.append_nil]
  | cons member rest ih =>
    obtain ⟨key, value⟩ := member
    have hkey : key ∉ seen.map Prod.fst := not_mem_keys_of_nodup hnodup
    rw [List.forall_mem_cons] at h
    rw [List.append_cons] at hnodup ⊢
    rw [ofMembers, evaluateProperties, h.1, putEntry_of_not_mem value hkey, ih hnodup h.2]

/-- **The literal of a value** has this value. -/
theorem evaluate_ofJson {value : Json} (h : value.Unrepeated) :
    (ofJson value).evaluate = value := by
  induction value using Json.value_induction with
  | null | bool | number | string => rw [ofJson, evaluate]
  | array items ih =>
    cases h with
    | array hitems =>
      rw [ofJson, evaluate, evaluateElements_ofItems fun item hitem => ih item hitem (hitems item hitem)]
  | object members ih =>
    cases h with
    | object hnodup hmembers =>
      have hmembers : evaluateProperties [] (ofMembers members) = [] ++ members :=
        evaluateProperties_ofMembers hnodup fun member hmember =>
          ih member hmember (hmembers member hmember)
      rw [ofJson, evaluate, hmembers, List.nil_append]

end Literal.Tree

end Mosaic
