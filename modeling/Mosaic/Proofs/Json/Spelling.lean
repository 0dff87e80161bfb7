import Mathlib.Algebra.Group.Int.Defs
import Mathlib.Algebra.Group.Nat.Defs
import Mosaic.Json.Printer
import Mosaic.Json.Reader

/-!
# Spellings of JSON

The compact and the indented text of a value differ only in the blanks between its
parts. Both are spellings of the value, with a rule for the blanks as a parameter, so
that what a reader makes of them is said once.

* `Spacing.spell`: the text of a value, with blanks as a `Spacing` has them.
* `spell_tight`, `spell_indented`: the two written forms are spellings.
* `Json.depth`, `Json.Integral`: how deep a value is nested, and values that hold no
  number but integers of a given kind.
* `Json.Unrepeated`: values in which no object repeats a key.
-/

namespace Mosaic.Json

/-! ## Values -/

/-- To prove something of all values, prove it of a container from what it holds. -/
@[elab_as_elim] theorem value_induction {motive : Json → Prop}
    (null : motive .null) (bool : ∀ b, motive (.bool b)) (number : ∀ n, motive (.number n))
    (string : ∀ s, motive (.string s))
    (array : ∀ items, (∀ item ∈ items, motive item) → motive (.array items))
    (object : ∀ members, (∀ member ∈ members, motive member.2) → motive (.object members))
    (value : Json) : motive value := by
  match value with
  | .null => exact null
  | .bool b => exact bool b
  | .number n => exact number n
  | .string s => exact string s
  | .array items =>
    refine array items fun item hitem => ?_
    have hsize := List.sizeOf_lt_of_mem hitem
    exact value_induction null bool number string array object item
  | .object members =>
    refine object members fun member hmember => ?_
    have hsize := List.sizeOf_lt_of_mem hmember
    exact value_induction null bool number string array object member.2
-- parts are smaller than the array or object that holds them
termination_by sizeOf value
decreasing_by
  · simp only [Json.array.sizeOf_spec]
    omega
  · obtain ⟨key, value⟩ := member
    simp only [Json.object.sizeOf_spec, Prod.mk.sizeOf_spec] at hsize ⊢
    omega

mutual

/-- The number of arrays and objects that are nested in each other. -/
def depth : Json → Nat
  | .array items => depthItems items + 1
  | .object members => depthMembers members + 1
  | _ => 0

/-- The depth of the deepest item. -/
def depthItems : List Json → Nat
  | [] => 0
  | item :: rest => max item.depth (depthItems rest)

/-- The depth of the deepest member. -/
def depthMembers : List (String × Json) → Nat
  | [] => 0
  | (_, value) :: rest => max value.depth (depthMembers rest)

end

/-- Items are no deeper than a limit if none of them is. -/
theorem depthItems_le_iff {items : List Json} {d : Nat} :
    depthItems items ≤ d ↔ ∀ item ∈ items, item.depth ≤ d := by
  induction items with
  | nil => simp [depthItems]
  | cons item rest ih => rw [depthItems, Nat.max_le, ih, List.forall_mem_cons]

/-- Members are no deeper than a limit if none of them is. -/
theorem depthMembers_le_iff {members : List (String × Json)} {d : Nat} :
    depthMembers members ≤ d ↔ ∀ member ∈ members, member.2.depth ≤ d := by
  induction members with
  | nil => simp [depthMembers]
  | cons member rest ih =>
    obtain ⟨key, value⟩ := member
    rw [depthMembers, Nat.max_le, ih, List.forall_mem_cons]

/-- Values whose numbers are integers of a given kind, and whose keys are distinct. -/
inductive Integral (kind : Int → Prop) : Json → Prop
  | null : Integral kind .null
  | bool (b : Bool) : Integral kind (.bool b)
  | number {n : Int} : kind n → Integral kind (.number (.int n))
  | string (s : String) : Integral kind (.string s)
  | array {items : List Json} :
    (∀ item ∈ items, Integral kind item) → Integral kind (.array items)
  | object {members : List (String × Json)} : (members.map Prod.fst).Nodup →
    (∀ member ∈ members, Integral kind member.2) → Integral kind (.object members)

/-- Values in which no object repeats a key. -/
inductive Unrepeated : Json → Prop
  | null : Unrepeated .null
  | bool (b : Bool) : Unrepeated (.bool b)
  | number (n : Number) : Unrepeated (.number n)
  | string (s : String) : Unrepeated (.string s)
  | array {items : List Json} : (∀ item ∈ items, Unrepeated item) → Unrepeated (.array items)
  | object {members : List (String × Json)} : (members.map Prod.fst).Nodup →
    (∀ member ∈ members, Unrepeated member.2) → Unrepeated (.object members)

/-- Where all numbers are integers no name is repeated either. -/
theorem Integral.unrepeated {kind : Int → Prop} {value : Json} (h : Integral kind value) :
    value.Unrepeated := by
  induction h with
  | null => exact .null
  | bool b => exact .bool b
  | number _ => exact .number _
  | string s => exact .string s
  | array _ ih => exact .array ih
  | object hnodup _ ih => exact .object hnodup ih

/-- The integers that numbers without a fraction are read as: those of 64 bits, with or
without a sign. -/
def IsWord (n : Int) : Prop := -2 ^ 63 ≤ n ∧ n < 2 ^ 64

instance (n : Int) : Decidable (IsWord n) := inferInstanceAs (Decidable (_ ∧ _))

/-! ## Blanks -/

/-- The blanks of a text: those before an element of a container and before the bracket
that closes it, by level, and those between a colon and a value. -/
structure Spacing where
  line : Nat → List Char
  colon : List Char
  isBlank_line : ∀ level, ∀ c ∈ line level, isBlank c = true
  isBlank_colon : ∀ c ∈ colon, isBlank c = true

namespace Spacing

/-- No blanks at all. -/
def tight : Spacing where
  line _ := []
  colon := []
  isBlank_line := by simp
  isBlank_colon := by simp

/-- Each element on a line of its own, indented by its level. -/
def indented : Spacing where
  line := newline
  colon := [' ']
  isBlank_line level c hc := by
    rcases List.mem_cons.mp hc with rfl | hspace
    · rfl
    · rw [List.eq_of_mem_replicate hspace]
      rfl
  isBlank_colon c hc := by
    rw [List.mem_singleton.mp hc]
    rfl

variable (s : Spacing) {β γ : Type}

/-- The elements of a container after the first one, and the bracket that closes it. -/
def elementsTail (level : Nat) (close : Char) (text : β → List Char) : List β → List Char
  | [] => s.line level ++ [close]
  | x :: rest => ',' :: (s.line (level + 1) ++ (text x ++ elementsTail level close text rest))

/-- The elements of a container and the bracket that closes it. -/
def elements (level : Nat) (close : Char) (text : β → List Char) : List β → List Char
  | [] => [close]
  | x :: rest => s.line (level + 1) ++ (text x ++ s.elementsTail level close text rest)

/-- A member of an object, given the text of its value. -/
def member (key : String) (value : List Char) : List Char :=
  quote key ++ ':' :: (s.colon ++ value)

/-- The text of a value that starts at the given level. -/
def spell (level : Nat) : Json → List Char
  | .array items => '[' :: s.elements level ']' (fun item => spell (level + 1) item.1) items.attach
  | .object members =>
    '{' :: s.elements level '}' (fun entry => s.member entry.1.1 (spell (level + 1) entry.1.2))
      members.attach
  | scalar => compactChars scalar
termination_by value => sizeOf value
decreasing_by
  · have hsize := List.sizeOf_lt_of_mem item.2
    simp only [Json.array.sizeOf_spec]
    omega
  · obtain ⟨⟨key, value⟩, hentry⟩ := entry
    have hsize := List.sizeOf_lt_of_mem hentry
    simp only [Json.object.sizeOf_spec, Prod.mk.sizeOf_spec] at hsize ⊢
    omega

variable {s} {level : Nat} {close : Char}

/-- The elements of a list of values are those of the values. -/
theorem elementsTail_map (f : γ → β) (text : β → List Char) (xs : List γ) :
    s.elementsTail level close text (xs.map f) =
      s.elementsTail level close (fun x => text (f x)) xs := by
  induction xs with
  | nil => rfl
  | cons x rest ih => rw [List.map_cons, elementsTail, elementsTail, ih]

theorem elements_map (f : γ → β) (text : β → List Char) (xs : List γ) :
    s.elements level close text (xs.map f) = s.elements level close (fun x => text (f x)) xs := by
  cases xs with
  | nil => rfl
  | cons x rest => rw [List.map_cons, elements, elements, elementsTail_map]

/-- What follows an element depends on the texts of the others only. -/
theorem elementsTail_congr {text text' : β → List Char} {xs : List β}
    (h : ∀ x ∈ xs, text x = text' x) :
    s.elementsTail level close text xs = s.elementsTail level close text' xs := by
  induction xs with
  | nil => rfl
  | cons x rest ih =>
    rw [elementsTail, elementsTail, h x (List.mem_cons_self ..),
      ih fun y hy => h y (List.mem_cons_of_mem _ hy)]

/-- The elements of a list depend on their texts only. -/
theorem elements_congr {text text' : β → List Char} {xs : List β}
    (h : ∀ x ∈ xs, text x = text' x) :
    s.elements level close text xs = s.elements level close text' xs := by
  cases xs with
  | nil => rfl
  | cons x rest =>
    rw [elements, elements, h x (List.mem_cons_self ..),
      elementsTail_congr fun y hy => h y (List.mem_cons_of_mem _ hy)]

/-- There are no more elements than characters. -/
theorem length_le_length_elementsTail (text : β → List Char) (xs : List β) :
    xs.length ≤ (s.elementsTail level close text xs).length := by
  induction xs with
  | nil => exact Nat.zero_le _
  | cons x rest ih =>
    simp only [elementsTail, List.length_cons, List.length_append]
    omega

/-- The text of a container holds those of its elements. -/
theorem length_text_le_elements (text : β → List Char) {xs : List β} {x : β} (hx : x ∈ xs) :
    (text x).length ≤ (s.elements level close text xs).length := by
  -- after the first element each one stands behind a comma
  have htail : ∀ ys, x ∈ ys → (text x).length ≤ (s.elementsTail level close text ys).length := by
    intro ys hys
    induction ys with
    | nil => cases hys
    | cons y rest ih =>
      simp only [elementsTail, List.length_cons, List.length_append]
      rcases List.mem_cons.mp hys with rfl | hrest
      · omega
      · have hle := ih hrest
        omega
  cases xs with
  | nil => cases hx
  | cons y rest =>
    simp only [elements, List.length_append]
    rcases List.mem_cons.mp hx with rfl | hrest
    · omega
    · have hle := htail rest hrest
      omega

/-- An array is spelled item by item, one level deeper. -/
theorem spell_array (items : List Json) :
    s.spell level (.array items) = '[' :: s.elements level ']' (s.spell (level + 1)) items := by
  rw [spell, ← elements_map Subtype.val (s.spell (level + 1)), List.attach_map_subtype_val]

/-- An object is spelled member by member, one level deeper. -/
theorem spell_object (members : List (String × Json)) :
    s.spell level (.object members) =
      '{' :: s.elements level '}' (fun entry => s.member entry.1 (s.spell (level + 1) entry.2))
        members := by
  rw [spell, ← elements_map Subtype.val fun entry : String × Json =>
    s.member entry.1 (s.spell (level + 1) entry.2), List.attach_map_subtype_val]

/-- A scalar is spelled without blanks. -/
theorem spell_scalar {value : Json} (harray : ∀ items, value ≠ .array items)
    (hobject : ∀ members, value ≠ .object members) : s.spell level value = value.compactChars := by
  rw [spell]
  · exact harray
  · exact hobject

/-! ## The two written forms -/

/-- Without blanks, items are spelled as they are printed. -/
theorem compactItems_eq (level : Nat) (items : List Json) :
    compactItems items = tight.elements level ']' compactChars items := by
  have htail : ∀ rest, compactItemsTail rest = tight.elementsTail level ']' compactChars rest := by
    intro rest
    induction rest with
    | nil => rfl
    | cons item rest ih => rw [compactItemsTail, elementsTail, ih]; rfl
  cases items with
  | nil => rfl
  | cons item rest => rw [compactItems, elements, htail]; rfl

/-- Without blanks, members are spelled as they are printed. -/
theorem compactMembers_eq (level : Nat) (members : List (String × Json)) :
    compactMembers members =
      tight.elements level '}' (fun entry => tight.member entry.1 (compactChars entry.2))
        members := by
  have htail : ∀ rest, compactMembersTail rest = tight.elementsTail level '}'
      (fun entry => tight.member entry.1 (compactChars entry.2)) rest := by
    intro rest
    induction rest with
    | nil => rfl
    | cons entry rest ih =>
      rw [compactMembersTail, elementsTail, ih, member, List.append_assoc]
      rfl
  cases members with
  | nil => rfl
  | cons entry rest =>
    rw [compactMembers, elements, htail, member, List.append_assoc]
    rfl

/-- With lines of their own, items are spelled as they are printed. -/
theorem prettyItems_eq (items : List Json) :
    prettyItems level items = indented.elements level ']' (prettyChars (level + 1)) items := by
  have htail : ∀ rest, prettyItemsTail level rest =
      indented.elementsTail level ']' (prettyChars (level + 1)) rest := by
    intro rest
    induction rest with
    | nil => rfl
    | cons item rest ih => rw [prettyItemsTail, elementsTail, ih]; rfl
  cases items with
  | nil => rfl
  | cons item rest => rw [prettyItems, elements, htail]; rfl

/-- With lines of their own, members are spelled as they are printed. -/
theorem prettyMembers_eq (members : List (String × Json)) :
    prettyMembers level members =
      indented.elements level '}'
        (fun entry => indented.member entry.1 (prettyChars (level + 1) entry.2)) members := by
  have htail : ∀ rest, prettyMembersTail level rest = indented.elementsTail level '}'
      (fun entry => indented.member entry.1 (prettyChars (level + 1) entry.2)) rest := by
    intro rest
    induction rest with
    | nil => rfl
    | cons entry rest ih =>
      rw [prettyMembersTail, elementsTail, ih, member, List.append_assoc]
      rfl
  cases members with
  | nil => rfl
  | cons entry rest =>
    rw [prettyMembers, elements, htail, member, List.append_assoc]
    rfl

/-- A value is nested no deeper than its text is long. -/
theorem depth_le_length_compactChars (value : Json) : value.depth ≤ value.compactChars.length := by
  induction value using value_induction with
  | null | bool | number | string => exact Nat.zero_le _
  | array items ih =>
    rw [depth, compactChars, compactItems_eq 0, List.length_cons, Nat.succ_le_succ_iff,
      depthItems_le_iff]
    exact fun item hitem => Nat.le_trans (ih item hitem) (length_text_le_elements compactChars hitem)
  | object members ih =>
    rw [depth, compactChars, compactMembers_eq 0, List.length_cons, Nat.succ_le_succ_iff,
      depthMembers_le_iff]
    intro member hmember
    have hvalue : member.2.compactChars.length ≤
        (tight.member member.1 member.2.compactChars).length := by
      simp only [Spacing.member, List.length_append, List.length_cons]
      omega
    refine Nat.le_trans (ih member hmember) (Nat.le_trans hvalue ?_)
    exact length_text_le_elements
      (fun entry : String × Json => tight.member entry.1 entry.2.compactChars) hmember

/-- The compact text of a value is its spelling without blanks. -/
theorem spell_tight (level : Nat) (value : Json) :
    tight.spell level value = value.compactChars := by
  induction value using value_induction generalizing level with
  | null | bool | number | string => exact spell_scalar (by simp) (by simp)
  | array items ih =>
    rw [spell_array, compactChars, compactItems_eq level]
    exact congrArg _ (elements_congr fun item hitem => ih item hitem (level + 1))
  | object members ih =>
    rw [spell_object, compactChars, compactMembers_eq level]
    exact congrArg _ (elements_congr fun entry hentry => by rw [ih entry hentry (level + 1)])

/-- The indented text of a value is its spelling with lines of their own for elements. -/
theorem spell_indented (level : Nat) (value : Json) :
    indented.spell level value = value.prettyChars level := by
  induction value using value_induction generalizing level with
  | bool b =>
    rw [spell_scalar (by simp) (by simp)]
    cases b <;> rfl
  | null | number | string => exact spell_scalar (by simp) (by simp)
  | array items ih =>
    rw [spell_array, prettyChars, prettyItems_eq]
    exact congrArg _ (elements_congr fun item hitem => ih item hitem (level + 1))
  | object members ih =>
    rw [spell_object, prettyChars, prettyMembers_eq]
    exact congrArg _ (elements_congr fun entry hentry => by rw [ih entry hentry (level + 1)])

end Spacing

end Mosaic.Json
