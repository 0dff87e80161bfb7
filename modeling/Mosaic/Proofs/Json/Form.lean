import Mosaic.Json.Form
import Mosaic.Proofs.Json.Limits

/-!
# Reading typed values back

A form reads a value back if it reads every spelling of its JSON as the value itself. Each
way to build a form is shown to keep this, so that for a record only its fields have to be
named. In the same way a form that gives up on a value makes a form give up in which it is used.

* `Form.ReadsBack`: what a form makes of the spellings of a value.
* `readsBack_scalar`, `readsBack_value`, `readsBack_list`, `readsBack_dict`: leaves and
  containers.
* `Record.Fills`, `readsBack_record`: a record, member by member.
* `Form.Rejects`, `rejects_value`, `rejects_dict`, `rejects_record`: values that a form gives up on,
  and what contains them.
* `parse_of_readsBack`, `parse_of_rejects`: whole texts.
-/

namespace Mosaic.Json

namespace Form

variable {α β σ : Type} {d : Nat}

/-- The form reads `a` from each spelling of a value, also behind blanks, if the reader may
open `d` arrays and objects. -/
def ReadsBack (form : Form α) (d : Nat) (value : Json) (a : α) : Prop :=
  ∀ (s : Spacing) (level : Nat) (blanks : List Char), (∀ c ∈ blanks, isBlank c = true) →
    Reads (form.ofText d) (blanks ++ s.spell level value) a

/-- What is read back is read from each of its spellings. -/
theorem ReadsBack.reads {form : Form α} {value : Json} {a : α} (h : form.ReadsBack d value a)
    (s : Spacing) (level : Nat) : Reads (form.ofText d) (s.spell level value) a :=
  h s level [] (by simp)

/-- Blanks and an opening character in front of a text: the blanks are skipped. -/
theorem skipBlanks_opening {blanks : List Char} (hblanks : ∀ c ∈ blanks, isBlank c = true)
    {c : Char} (hc : isBlank c = false) (text rest : List Char) :
    skipBlanks (blanks ++ c :: text ++ rest) = c :: (text ++ rest) := by
  rw [List.append_assoc, skipBlanks_append hblanks, List.cons_append, skipBlanks_cons hc]

/-! ## Leaves -/

/-- A value without elements is read back if it is read as a value. -/
theorem readsBack_scalar {expected : String} {read : Json → Except Mismatch α} {value : Json}
    {a : α} (hvalue : Integral IsWord value) (harray : ∀ items, value ≠ .array items)
    (hobject : ∀ members, value ≠ .object members) (h : read value = .ok a) :
    (scalar expected read).ReadsBack d value a := by
  intro s level blanks hblanks rest hrest
  obtain ⟨c, tail, heq, hblank, -, -, hlist, hmap⟩ :=
    compactChars_scalar_eq_cons harray hobject
  have hread := readValueWith_scalar hvalue harray hobject hrest none
  rw [heq, List.cons_append] at hread
  rw [Spacing.spell_scalar harray hobject, heq]
  unfold scalar
  dsimp only
  rw [skipBlanks_opening hblanks hblank]
  split
  · next hcons => exact absurd (List.cons.inj hcons).1 hlist
  · next hcons => exact absurd (List.cons.inj hcons).1 hmap
  · rw [hread]
    simp only [bind, Except.bind, h]

/-- Texts are read back. -/
theorem readsBack_text (expected : String) (s : String) :
    (text expected).ReadsBack d (.string s) s :=
  readsBack_scalar (.string s) (by simp) (by simp) rfl

/-- **Natural numbers** are read back below the limit of 64 bits. -/
theorem readsBack_count {n : Nat} (hn : n < 2 ^ 64) :
    count.ReadsBack d (.number (.int n)) n := by
  refine readsBack_scalar (.number ⟨by omega, by omega⟩) (by simp) (by simp) ?_
  show (if (n : Int) < 0 then _ else Except.ok _) = _
  rw [if_neg (by omega), Int.toNat_natCast]

/-- Blanks before a value make no difference. -/
theorem ofText_value {blanks : List Char} (hblanks : ∀ c ∈ blanks, isBlank c = true)
    (text rest : List Char) :
    Form.value.ofText d (blanks ++ text ++ rest) = readValue d (text ++ rest) := by
  show readValue d _ = _
  rw [readValue_eq, List.append_assoc, readValueWith_append hblanks]

/-- What every spelling of a value is read as is read back. -/
theorem readsBack_value_of_reads {value found : Json}
    (h : ∀ (s : Spacing) (level : Nat), Reads (readValue d) (s.spell level value) found) :
    Form.value.ReadsBack d value found := by
  intro s level blanks hblanks rest hrest
  rw [ofText_value hblanks]
  exact h s level rest hrest

/-- A value that fits in the depth is read back as some value. -/
theorem exists_readsBack_value {value : Json} (h : FitsIn d value) :
    ∃ found, Form.value.ReadsBack d value found := by
  obtain ⟨found, hfound⟩ := exists_reads_value h
  exact ⟨found, readsBack_value_of_reads hfound⟩

/-- **A value is read back** as itself, if its numbers are integers within their limits. -/
theorem readsBack_value {value : Json} (hvalue : Integral IsWord value)
    (hdepth : value.depth ≤ d) : Form.value.ReadsBack d value value :=
  readsBack_value_of_reads (reads_value hvalue hdepth)

/-! ## Containers -/

/-- **A list is read back** if its items are, one level deeper. -/
theorem readsBack_list {form : Form α} {toJson : α → Json} {xs : List α}
    (h : ∀ x ∈ xs, form.ReadsBack d (toJson x) x) :
    (list form).ReadsBack (d + 1) (.array (xs.map toJson)) xs := by
  intro s level blanks hblanks rest hrest
  have hitems : Reads (readItems (form.ofText d))
      (s.elements level ']' (fun x => s.spell (level + 1) (toJson x)) xs) (xs.map id) :=
    reads_items (fun x _ => startsToken_spell (toJson x) s (level + 1))
      fun x hx => (h x hx).reads s (level + 1)
  rw [List.map_id] at hitems
  rw [Spacing.spell_array, Spacing.elements_map]
  unfold list
  dsimp only
  rw [skipBlanks_opening hblanks rfl]
  exact hitems rest hrest

/-- What reads a member of a dictionary. -/
def dictMember (form : Form α) (d : Nat) (dict : Dict α) (key : String) (rest : List Char) :
    Except Fault (Dict α × List Char) := do
  let (a, rest) ← form.ofText d (← readColon rest)
  .ok (dict.insert key a, rest)

/-- An entry is read from behind its colon. -/
theorem dictMember_colon (form : Form α) (dict : Dict α) (key : String) (rest : List Char) :
    dictMember form d dict key (':' :: rest) =
      (form.ofText d rest).map fun (a, rest) => (dict.insert key a, rest) := by
  rw [dictMember, readColon_colon]
  show (form.ofText d rest >>= _) = _
  cases form.ofText d rest <;> rfl

/-- An entry is read back if its value is. -/
theorem reads_dictMember {form : Form α} {value : Json} {a : α} (h : form.ReadsBack d value a)
    (s : Spacing) (level : Nat) (dict : Dict α) (key : String) :
    Reads (dictMember form d dict key) (':' :: (s.colon ++ s.spell level value))
      (dict.insert key a) := by
  intro rest hrest
  rw [List.cons_append, dictMember_colon, h s level s.colon s.isBlank_colon rest hrest]
  rfl

/-- The entries of a dictionary are read one after the other, and added to those before
them. -/
theorem membersRead_dict {form : Form α} {toJson : α → Json} {found : String → α → α} (s : Spacing)
    (level : Nat) {entries : List (String × α)} (seen : Dict α)
    (hnodup : ((seen.entries ++ entries).map Prod.fst).Nodup)
    (h : ∀ entry ∈ entries, form.ReadsBack d (toJson entry.2) (found entry.1 entry.2)) :
    ∃ after : Dict α,
      after.entries = seen.entries ++ entries.map (fun entry => (entry.1, found entry.1 entry.2)) ∧
      MembersRead s Prod.fst (fun entry => s.spell level (toJson entry.2)) (dictMember form d)
        seen entries after := by
  induction entries generalizing seen with
  | nil => exact ⟨seen, (List.append_nil _).symm, .nil seen⟩
  | cons entry rest ih =>
    obtain ⟨key, a⟩ := entry
    rw [List.forall_mem_cons] at h
    -- the key has not been seen, so that its value comes last
    have hkey : key ∉ seen.entries.map Prod.fst := not_mem_keys_of_nodup hnodup
    have hinsert : (seen.insert key (found key a)).entries = seen.entries ++ [(key, found key a)] :=
      putEntry_of_not_mem (found key a) hkey
    have hnodup' : (((seen.insert key (found key a)).entries ++ rest).map Prod.fst).Nodup := by
      rw [hinsert]
      simpa using hnodup
    obtain ⟨after, hafter, hread⟩ := ih (seen.insert key (found key a)) hnodup' h.2
    refine ⟨after, ?_, .cons (reads_dictMember h.1 s level seen key) hread⟩
    rw [hafter, hinsert, List.append_assoc, List.singleton_append, List.map_cons]

/-- A dictionary is spelled entry by entry, like an object with the values of the entries. -/
theorem spell_ofDict (s : Spacing) (level : Nat) (toJson : α → Json) (dict : Dict α) :
    s.spell level (.ofDict (dict.map fun _ a => toJson a)) =
      '{' :: s.elements level '}'
        (fun entry : String × α => s.member entry.1 (s.spell (level + 1) (toJson entry.2)))
        dict.entries := by
  rw [Json.ofDict, Dict.map, Spacing.spell_object, Spacing.elements_map]

/-- A dictionary is read entry by entry, as what its entries are read as. -/
theorem readsBack_dict_map {form : Form α} {toJson : α → Json} {found : String → α → α}
    {dict : Dict α}
    (h : ∀ entry ∈ dict.entries, form.ReadsBack d (toJson entry.2) (found entry.1 entry.2)) :
    (Form.dict form).ReadsBack (d + 1) (.ofDict (dict.map fun _ a => toJson a)) (dict.map found) := by
  intro s level blanks hblanks rest hrest
  obtain ⟨after, hafter, hmembers⟩ := membersRead_dict s (level + 1) ∅ dict.distinct h
  have hdict : after = dict.map found := Dict.ext hafter
  rw [hdict] at hmembers
  rw [spell_ofDict]
  unfold Form.dict
  dsimp only
  rw [skipBlanks_opening hblanks rfl]
  exact reads_members hmembers rest hrest

/-- **A dictionary is read back** if its values are, one level deeper. -/
theorem readsBack_dict {form : Form α} {toJson : α → Json} {dict : Dict α}
    (h : ∀ entry ∈ dict.entries, form.ReadsBack d (toJson entry.2) entry.2) :
    (Form.dict form).ReadsBack (d + 1) (.ofDict (dict.map fun _ a => toJson a)) dict := by
  have hdict : (dict.map fun _ a => a) = dict := Dict.ext (List.map_id dict.entries)
  have hread : (Form.dict form).ReadsBack (d + 1) (.ofDict (dict.map fun _ a => toJson a))
      (dict.map fun _ a => a) := readsBack_dict_map h
  rwa [hdict] at hread

/-! ## Records -/

/-- From the draft `before`, the field reads each spelling of a value, and fills it in. -/
def Field.ReadsBack (field : Field σ) (d : Nat) (before : σ) (value : Json) (after : σ) : Prop :=
  ∀ (s : Spacing) (level : Nat) (blanks : List Char), (∀ c ∈ blanks, isBlank c = true) →
    Reads (field.ofText d before) (blanks ++ s.spell level value) after

/-- A field is filled in if its value is read back. -/
theorem Field.readsBack_of {form : Form β} {value : Json} {b : β} (h : form.ReadsBack d value b)
    (name : String) (get : σ → Option β) (set : σ → β → σ) (hasDefault : Bool) (before : σ) :
    (Field.of name form get set hasDefault).ReadsBack d before value (set before b) := by
  intro s level blanks hblanks rest hrest
  show (form.ofText d (blanks ++ s.spell level value ++ rest)).map _ = _
  rw [h s level blanks hblanks rest hrest]
  rfl

/-- A field is empty before it is filled in. -/
theorem Field.isSet_of {form : Form β} {get : σ → Option β} {before : σ} (hget : get before = none)
    (name : String) (set : σ → β → σ) (hasDefault : Bool) :
    (Field.of name form get set hasDefault).isSet before = false :=
  Option.isSome_eq_false_iff.mpr (Option.isNone_iff_eq_none.mpr hget)

/-- Members that fill in fields of a record one after the other, each for the first time, with
the draft before and after them. -/
inductive Record.Fills (r : Record σ α) (d : Nat) : σ → List (String × Json) → σ → Prop
  | nil (draft : σ) : r.Fills d draft [] draft
  | cons {before between after : σ} {name : String} {value : Json} {field : Field σ}
      {members : List (String × Json)} :
    r.field? name = some field → field.isSet before = false →
    field.ReadsBack d before value between → r.Fills d between members after →
    r.Fills d before ((name, value) :: members) after

/-- A member whose field holds a value of some form fills in what that form reads. -/
theorem Record.Fills.of {r : Record σ α} {before after : σ} {name : String} {value : Json}
    {members : List (String × Json)} {form : Form β} {get : σ → Option β} {set : σ → β → σ}
    {hasDefault : Bool} {b : β} (hread : form.ReadsBack d value b)
    (hfield : r.field? name = some (.of name form get set hasDefault)) (hget : get before = none)
    (hrest : r.Fills d (set before b) members after) :
    r.Fills d before ((name, value) :: members) after := by
  exact .cons hfield (Field.isSet_of hget name set hasDefault)
    (Field.readsBack_of hread name get set hasDefault before) hrest

/-- The member of a field fills it in. -/
theorem reads_textMember {r : Record σ α} {field : Field σ} {before after : σ} {name : String}
    {value : Json} (hfield : r.field? name = some field) (hset : field.isSet before = false)
    (hread : field.ReadsBack d before value after) (s : Spacing) (level : Nat) :
    Reads (r.textMember d before name) (':' :: (s.colon ++ s.spell level value)) after := by
  intro rest hrest
  simp only [Record.textMember, hfield, hset, List.cons_append, readColon_colon]
  exact hread s level s.colon s.isBlank_colon rest hrest

/-- Members that fill in fields one after the other are read one after the other. -/
theorem membersRead_of_fills {r : Record σ α} {before after : σ} {members : List (String × Json)}
    (h : r.Fills d before members after) (s : Spacing) (level : Nat) :
    MembersRead s Prod.fst (fun member => s.spell level member.2) (r.textMember d) before members
      after := by
  induction h with
  | nil draft => exact .nil draft
  | cons hfield hset hread _ ih => exact .cons (reads_textMember hfield hset hread s level) ih

/-- **A record is read back**, if its members fill in a draft that completes to it. -/
theorem readsBack_record {r : Record σ α} {members : List (String × Json)} {a : α} (draft : σ)
    (hfills : r.Fills d r.start members draft) (hfinish : r.finish draft = .ok a) :
    (Form.record r).ReadsBack (d + 1) (.object members) a := by
  intro s level blanks hblanks rest hrest
  have hmembers : Reads (readMembers (r.textMember d) r.start)
      (s.elements level '}' (fun x => s.member x.1 (s.spell (level + 1) x.2)) members) draft :=
    reads_members (membersRead_of_fills hfills s (level + 1))
  rw [Spacing.spell_object]
  show r.ofText (d + 1) _ = _
  rw [Record.ofText, skipBlanks_opening hblanks rfl]
  show (readMembers (r.textMember d) r.start _ >>= _) = _
  rw [hmembers rest hrest]
  show r.finishAt draft rest = _
  rw [Record.finishAt, hfinish]

/-! ## Refusals -/

section

variable {causes : Cause → Prop}

/-- The form gives up on each spelling of a value, for one of the causes. -/
def Rejects (form : Form α) (d : Nat) (value : Json) (causes : Cause → Prop) : Prop :=
  ∀ (s : Spacing) (level : Nat) (blanks : List Char), (∀ c ∈ blanks, isBlank c = true) →
    Refuses (form.ofText d) (blanks ++ s.spell level value) causes

/-- What is rejected is refused in each of its spellings. -/
theorem Rejects.refuses {form : Form α} {value : Json} (h : form.Rejects d value causes)
    (s : Spacing) (level : Nat) : Refuses (form.ofText d) (s.spell level value) causes :=
  h s level [] (by simp)

/-- **A value is rejected** if it is too deep, or a number in it is out of range. -/
theorem rejects_value (hdeep : causes (.malformed .tooDeep)) {value : Json}
    (hnumbers : value.Legible ∨ causes (.malformed .numberOutOfRange)) (h : ¬FitsIn d value) :
    Form.value.Rejects d value causes := by
  intro s level blanks hblanks rest hrest
  rw [ofText_value hblanks]
  exact refuses_value hdeep hnumbers h s level rest hrest

/-- An entry is refused if its value is. -/
theorem refuses_dictMember {form : Form α} {value : Json} (h : form.Rejects d value causes)
    (s : Spacing) (level : Nat) (dict : Dict α) (key : String) :
    Refuses (dictMember form d dict key) (':' :: (s.colon ++ s.spell level value)) causes := by
  intro rest hrest
  rw [List.cons_append, dictMember_colon]
  exact (h s level s.colon s.isBlank_colon rest hrest).map _

/-- **A dictionary is refused** if one of its entries is, and all others are read or refused. -/
theorem rejects_dict {form : Form α} {toJson : α → Json} {dict : Dict α}
    (hread : ∀ entry ∈ dict.entries, (∃ a, form.ReadsBack d (toJson entry.2) a) ∨
      form.Rejects d (toJson entry.2) causes)
    (hrefused : ∃ entry ∈ dict.entries, form.Rejects d (toJson entry.2) causes) :
    (Form.dict form).Rejects (d + 1) (.ofDict (dict.map fun _ a => toJson a)) causes := by
  intro s level blanks hblanks rest hrest
  obtain ⟨entry, hentry, hrejects⟩ := hrefused
  -- each member is read or refused, and one of them is refused
  have hmembers : MembersRefused s Prod.fst
      (fun entry => s.spell (level + 1) (toJson entry.2)) (dictMember form d) causes ∅
      dict.entries := by
    refine membersRefused_of_exists (fun other hother => ?_)
      ⟨entry, hentry, fun before => refuses_dictMember hrejects s (level + 1) before entry.1⟩ ∅
    rcases hread other hother with ⟨a, hreads⟩ | hrefuses
    · exact .inl fun before => ⟨_, reads_dictMember hreads s (level + 1) before other.1⟩
    · exact .inr fun before => refuses_dictMember hrefuses s (level + 1) before other.1
  rw [spell_ofDict]
  unfold Form.dict
  dsimp only
  rw [skipBlanks_opening hblanks rfl]
  exact refuses_members hmembers rest hrest

/-- From the draft `before`, the field gives up on each spelling of a value. -/
def Field.Rejects (field : Field σ) (d : Nat) (before : σ) (value : Json)
    (causes : Cause → Prop) : Prop :=
  ∀ (s : Spacing) (level : Nat) (blanks : List Char), (∀ c ∈ blanks, isBlank c = true) →
    Refuses (field.ofText d before) (blanks ++ s.spell level value) causes

/-- A field is rejected if its value is. -/
theorem Field.rejects_of {form : Form β} {value : Json} (h : form.Rejects d value causes)
    (name : String) (get : σ → Option β) (set : σ → β → σ) (hasDefault : Bool) (before : σ) :
    (Field.of name form get set hasDefault).Rejects d before value causes :=
  fun s level blanks hblanks rest hrest => (h s level blanks hblanks rest hrest).map _

/-- Members of a record up to one on whose value its field gives up; those before it fill in
their fields. -/
inductive Record.Stops (r : Record σ α) (d : Nat) (causes : Cause → Prop) :
    σ → List (String × Json) → Prop
  | here {before : σ} {name : String} {value : Json} {field : Field σ}
      {members : List (String × Json)} :
    r.field? name = some field → field.isSet before = false →
    field.Rejects d before value causes → r.Stops d causes before ((name, value) :: members)
  | there {before between : σ} {name : String} {value : Json} {field : Field σ}
      {members : List (String × Json)} :
    r.field? name = some field → field.isSet before = false →
    field.ReadsBack d before value between → r.Stops d causes between members →
    r.Stops d causes before ((name, value) :: members)

/-- A member whose field holds a value of some form is passed, if that form reads the value. -/
theorem Record.Stops.of {r : Record σ α} {before : σ} {name : String} {value : Json}
    {members : List (String × Json)} {form : Form β} {get : σ → Option β} {set : σ → β → σ}
    {hasDefault : Bool} {b : β} (hread : form.ReadsBack d value b)
    (hfield : r.field? name = some (.of name form get set hasDefault)) (hget : get before = none)
    (hrest : r.Stops d causes (set before b) members) :
    r.Stops d causes before ((name, value) :: members) :=
  .there hfield (Field.isSet_of hget name set hasDefault)
    (Field.readsBack_of hread name get set hasDefault before) hrest

/-- It is the last one that is read, if that form gives up on it. -/
theorem Record.Stops.at {r : Record σ α} {before : σ} {name : String} {value : Json}
    {members : List (String × Json)} {form : Form β} {get : σ → Option β} {set : σ → β → σ}
    {hasDefault : Bool} (hrejects : form.Rejects d value causes)
    (hfield : r.field? name = some (.of name form get set hasDefault)) (hget : get before = none) :
    r.Stops d causes before ((name, value) :: members) :=
  .here hfield (Field.isSet_of hget name set hasDefault)
    (Field.rejects_of hrejects name get set hasDefault before)

/-- Members are refused as soon as one of them is, whatever comes after it. -/
theorem membersRefused_of_stops {r : Record σ α} {before : σ} {members : List (String × Json)}
    (h : r.Stops d causes before members) (s : Spacing) (level : Nat) :
    MembersRefused s Prod.fst (fun member => s.spell level member.2) (r.textMember d) causes before
      members := by
  induction h with
  | here hfield hset hrejects =>
    refine .here fun rest hrest => ?_
    simp only [Record.textMember, hfield, hset, List.cons_append, readColon_colon]
    exact hrejects s level s.colon s.isBlank_colon rest hrest
  | there hfield hset hread _ ih => exact .there (reads_textMember hfield hset hread s level) ih

/-- **A record is refused** if the form of one of its members gives up. -/
theorem rejects_record {r : Record σ α} {members : List (String × Json)}
    (h : r.Stops d causes r.start members) :
    (Form.record r).Rejects (d + 1) (.object members) causes := by
  intro s level blanks hblanks rest hrest
  have hmembers : Refuses (readMembers (r.textMember d) r.start)
      (s.elements level '}' (fun x => s.member x.1 (s.spell (level + 1) x.2)) members) causes :=
    refuses_members (membersRefused_of_stops h s (level + 1))
  rw [Spacing.spell_object]
  show Refused causes (r.ofText (d + 1) _)
  rw [Record.ofText, skipBlanks_opening hblanks rfl]
  exact (hmembers rest hrest).bind _

end

/-! ## Whole texts -/

/-- **A whole text is read back**, with blanks behind it. -/
theorem parse_of_readsBack {form : Form α} {value : Json} {a : α}
    (h : form.ReadsBack nestingLimit value a) (s : Spacing) (blanks : List Char)
    (hblanks : ∀ c ∈ blanks, isBlank c = true) :
    form.parse (String.ofList (s.spell 0 value ++ blanks)) = .ok a :=
  parseWith_of_reads (h.reads s 0) blanks hblanks

/-- **A whole text is refused**, for the cause for which the form gives up. -/
theorem parse_of_rejects {form : Form α} {value : Json} {causes : Cause → Prop}
    (h : form.Rejects nestingLimit value causes) (s : Spacing) (blanks : List Char)
    (hblanks : ∀ c ∈ blanks, isBlank c = true) :
    ∃ error, form.parse (String.ofList (s.spell 0 value ++ blanks)) = .error error ∧
      causes error.cause :=
  parseWith_of_refuses (h.refuses s 0) blanks hblanks

end Form

end Mosaic.Json
