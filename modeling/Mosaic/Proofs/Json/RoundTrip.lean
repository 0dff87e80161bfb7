import Mosaic.Proofs.Dict
import Mosaic.Proofs.Json.Containers

/-!
# Reading values back

A value whose numbers are integers of 64 bits is read back from each of its spellings, as
long as it is not nested deeper than the reader may go.

* `reads_value`: values, for a reader of any depth.
* `parseWith_of_reads`, `parseWith_of_refuses`: whole texts.
* `parse_spell`: both together.
-/

namespace Mosaic.Json

variable {s : Spacing} {level d : Nat}

/-! ## Values -/

/-- What may be read inside the arrays and objects of a value. -/
def nestedReader : Nat → Option (List Char → Except Fault (Json × List Char))
  | 0 => none
  | d + 1 => some (readValue d)

theorem readValue_eq (d : Nat) : readValue d = readValueWith (nestedReader d) := by
  cases d <;> rfl

theorem reads_scalar {value : Json} (hvalue : Integral IsWord value)
    (harray : ∀ items, value ≠ .array items) (hobject : ∀ members, value ≠ .object members) :
    Reads (readValue d) (s.spell level value) value := by
  intro rest hrest
  rw [readValue_eq, Spacing.spell_scalar harray hobject]
  exact readValueWith_scalar hvalue harray hobject hrest _

theorem reads_array {text : List Char} {items : List Json}
    (h : Reads (readItems (readValue d)) text items) :
    Reads (readValue (d + 1)) ('[' :: text) (.array items) := by
  intro rest hrest
  show (readItems (readValue d) (text ++ rest)).map _ = _
  rw [h rest hrest]
  rfl

theorem reads_object {text : List Char} {members : List (String × Json)}
    (h : Reads (readMembers (readMember (readValue d)) []) text members) :
    Reads (readValue (d + 1)) ('{' :: text) (.object members) := by
  intro rest hrest
  show (readMembers (readMember (readValue d)) [] (text ++ rest)).map _ = _
  rw [h rest hrest]
  rfl

theorem readColon_colon (rest : List Char) : readColon (':' :: rest) = .ok rest := rfl

/-- A reader of values passes over the blanks before a value. -/
theorem readValueWith_append {blanks : List Char} (hblanks : ∀ c ∈ blanks, isBlank c = true)
    (nested : Option (List Char → Except Fault (Json × List Char))) (text : List Char) :
    readValueWith nested (blanks ++ text) = readValueWith nested text := by
  unfold readValueWith
  rw [skipBlanks_append hblanks]

/-- A member whose value is read is put into the members before it. -/
theorem reads_member {text : List Char} {value : Json} (h : Reads (readValue d) text value)
    (key : String) (seen : List (String × Json)) :
    Reads (readMember (readValue d) seen key) (':' :: (s.colon ++ text))
      (putEntry key value seen) := by
  intro rest hrest
  have hread : readValue d (s.colon ++ text ++ rest) = .ok (value, rest) := by
    rw [readValue_eq, List.append_assoc, readValueWith_append s.isBlank_colon, ← readValue_eq,
      h rest hrest]
  rw [List.cons_append, readMember, readColon_colon]
  show (readValue d (s.colon ++ text ++ rest) >>= _) = _
  rw [hread]
  rfl

/-- Members with distinct keys are read one after the other, and added to those before
them. -/
theorem membersRead_of_nodup {text : Json → List Char} {members seen : List (String × Json)}
    (hnodup : ((seen ++ members).map Prod.fst).Nodup)
    (hread : ∀ member ∈ members, Reads (readValue d) (text member.2) member.2) :
    MembersRead s Prod.fst (fun member => text member.2) (readMember (readValue d)) seen members
      (seen ++ members) := by
  induction members generalizing seen with
  | nil =>
    rw [List.append_nil]
    exact .nil seen
  | cons member rest ih =>
    obtain ⟨key, value⟩ := member
    have hkey : key ∉ seen.map Prod.fst := not_mem_keys_of_nodup hnodup
    rw [List.forall_mem_cons] at hread
    -- a new key goes behind the others
    have hmember := reads_member (s := s) hread.1 key seen
    rw [putEntry_of_not_mem value hkey] at hmember
    rw [List.append_cons] at hnodup ⊢
    exact .cons hmember (ih hnodup hread.2)

/-- **Values are read back** from their spellings. -/
theorem reads_value {value : Json} (hvalue : Integral IsWord value) (hdepth : value.depth ≤ d)
    (s : Spacing) (level : Nat) : Reads (readValue d) (s.spell level value) value := by
  induction value using value_induction generalizing d level with
  | null | bool | number | string => exact reads_scalar hvalue (by simp) (by simp)
  | array items ih =>
    cases hvalue with
    | array hitems =>
      rw [depth] at hdepth
      -- the items are read by the reader inside, one level less deep
      obtain ⟨d, rfl⟩ := Nat.exists_eq_add_one_of_ne_zero (Nat.ne_zero_of_lt hdepth)
      have hdeep := depthItems_le_iff.mp (Nat.le_of_succ_le_succ hdepth)
      rw [Spacing.spell_array]
      refine reads_array ?_
      have hread : Reads (readItems (readValue d))
          (s.elements level ']' (s.spell (level + 1)) items) (items.map id) :=
        reads_items (fun item hitem => startsToken_spell item s (level + 1))
          fun item hitem => ih item hitem (hitems item hitem) (hdeep item hitem) (level + 1)
      rwa [List.map_id] at hread
  | object members ih =>
    cases hvalue with
    | object hnodup hmembers =>
      rw [depth] at hdepth
      obtain ⟨d, rfl⟩ := Nat.exists_eq_add_one_of_ne_zero (Nat.ne_zero_of_lt hdepth)
      have hdeep := depthMembers_le_iff.mp (Nat.le_of_succ_le_succ hdepth)
      rw [Spacing.spell_object]
      exact reads_object (reads_members (membersRead_of_nodup hnodup fun member hmember =>
        ih member hmember (hmembers member hmember) (hdeep member hmember) (level + 1)))

/-! ## Whole texts -/

section

variable {α : Type} {read : List Char → Except Fault (α × List Char)} {text : List Char}

/-- A text that is read, with blanks behind it, is read as a whole. -/
theorem parseWith_of_reads {a : α} (h : Reads read text a) (blanks : List Char)
    (hblanks : ∀ c ∈ blanks, isBlank c = true) :
    parseWith read (String.ofList (text ++ blanks)) = .ok a := by
  -- what is left behind the value is blank to the end
  have hread := h blanks (List.append_nil blanks ▸ ended_append hblanks ended_nil)
  have hskip : skipBlanks blanks = [] := List.append_nil blanks ▸ skipBlanks_append hblanks []
  simp only [parseWith, String.toList_ofList, hread]
  dsimp only [bind, Except.bind]
  rw [hskip]
  rfl

/-- A text that is refused is refused as a whole, for the same cause, also with blanks behind
it. -/
theorem parseWith_of_refuses {causes : Cause → Prop} (h : Refuses read text causes)
    (blanks : List Char) (hblanks : ∀ c ∈ blanks, isBlank c = true) :
    ∃ error, parseWith read (String.ofList (text ++ blanks)) = .error error ∧
      causes error.cause := by
  obtain ⟨fault, hread, hcause⟩ := h blanks (List.append_nil blanks ▸ ended_append hblanks ended_nil)
  refine ⟨fault.locate (text ++ blanks), ?_, hcause⟩
  simp only [parseWith, String.toList_ofList, hread]
  rfl

end

theorem parse_spell {value : Json} (hvalue : Integral IsWord value)
    (hdepth : value.depth ≤ nestingLimit) (s : Spacing) :
    parse (String.ofList (s.spell 0 value)) = .ok value := by
  have hparse := parseWith_of_reads (reads_value hvalue hdepth s 0) [] (by simp)
  rwa [List.append_nil] at hparse

end Mosaic.Json
