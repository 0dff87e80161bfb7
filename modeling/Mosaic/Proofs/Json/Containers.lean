import Mosaic.Proofs.Json.Tokens

/-!
# Reading containers back

The loops that read the items of an array and the members of an object, run on elements
as they are spelled. If every element is read back, so is the whole container; if one is
refused and those before it are read, so is the container.

* `Reads`, `Refuses`: what a reader makes of a text, whatever follows it.
* `reads_items`, `reads_members`: all elements are read, in order.
* `refuses_items`, `refuses_members`: one of the elements is refused.
-/

namespace Mosaic.Json

/-! ## Readers -/

section

variable {α β : Type}

/-- The reader takes a text for `a`, and leaves what follows. -/
def Reads (read : List Char → Except Fault (α × List Char)) (text : List Char) (a : α) : Prop :=
  ∀ rest, Ended rest → read (text ++ rest) = .ok (a, rest)

/-- A reading that gives up, for one of the given causes. -/
def Refused (causes : Cause → Prop) (result : Except Fault α) : Prop :=
  ∃ fault, result = .error fault ∧ causes fault.cause

/-- The reader gives up on a text, for one of the given causes. -/
def Refuses (read : List Char → Except Fault (α × List Char)) (text : List Char)
    (causes : Cause → Prop) : Prop :=
  ∀ rest, Ended rest → Refused causes (read (text ++ rest))

variable {causes : Cause → Prop} {result : Except Fault α}
  {read : List Char → Except Fault (α × List Char)} {text : List Char}

/-- What is refused stays refused, whatever would come next. -/
theorem Refused.bind (h : Refused causes result) (next : α → Except Fault β) :
    Refused causes (result >>= next) := by
  obtain ⟨fault, rfl, hcause⟩ := h
  exact ⟨fault, rfl, hcause⟩

/-- What is refused stays refused when its result would be changed. -/
theorem Refused.map (h : Refused causes result) (f : α → β) : Refused causes (result.map f) := by
  obtain ⟨fault, rfl, hcause⟩ := h
  exact ⟨fault, rfl, hcause⟩

/-- A fault refuses a text for its own cause. -/
theorem refused_fault {cause : SyntaxCause} (h : causes (.malformed cause)) (rest : List Char)
    (ahead : Nat) : Refused causes (fault cause rest ahead : Except Fault α) :=
  ⟨_, rfl, h⟩

/-- What is refused for some causes is refused for any that include them. -/
theorem Refuses.imp {causes' : Cause → Prop} (h : Refuses read text causes)
    (himp : ∀ cause, causes cause → causes' cause) : Refuses read text causes' := by
  intro rest hrest
  obtain ⟨fault, hfault, hcause⟩ := h rest hrest
  exact ⟨fault, hfault, himp fault.cause hcause⟩

/-- What is read is not refused. -/
theorem Reads.not_refuses {a : α} (h : Reads read text a) : ¬Refuses read text causes := by
  intro hrefuses
  obtain ⟨fault, hfault, -⟩ := hrefuses [] ended_nil
  rw [h [] ended_nil] at hfault
  cases hfault

end

/-! ## Between elements -/

variable {s : Spacing} {level : Nat} {α β σ : Type} {text : β → List Char}

/-- Behind an element no number goes on: blanks, a comma or a bracket stand there. -/
theorem ended_elementsTail {close : Char} (hclose : close = ']' ∨ close = '}') (xs : List β)
    (rest : List Char) : Ended (s.elementsTail level close text xs ++ rest) := by
  cases xs with
  | nil =>
    rw [Spacing.elementsTail, List.append_assoc]
    refine ended_append (s.isBlank_line level) ?_
    rcases hclose with rfl | rfl <;> exact ended_cons rfl (by decide) (by decide) (by decide)
  | cons x xs => exact ended_cons rfl (by decide) (by decide) (by decide)

/-- Each element takes at least one character, so that the length of a text bounds the
number of elements in it. -/
theorem length_lt_elementsTail {close : Char} (xs : List β) (first rest : List Char) :
    xs.length < (first ++ (s.elementsTail level close text xs ++ rest)).length := by
  induction xs with
  | nil =>
    simp only [Spacing.elementsTail, List.length_append, List.length_cons, List.length_nil]
    omega
  | cons x xs ih =>
    simp only [Spacing.elementsTail, List.length_append, List.length_cons] at ih ⊢
    omega

/-- Behind the blanks of a line an element begins. -/
theorem skipBlanks_line {first : List Char} (h : StartsToken first) (rest : List Char) :
    skipBlanks (s.line level ++ (first ++ rest)) = first ++ rest := by
  obtain ⟨c, tail, rfl, hblank, -⟩ := h
  rw [skipBlanks_append (s.isBlank_line level), List.cons_append, skipBlanks_cons hblank]

/-! ## Arrays -/

/-- After the last item comes the closing bracket. -/
theorem afterItem_closing (rest : List Char) :
    afterItem (s.elementsTail level ']' text [] ++ rest) = .ok (false, rest) := by
  rw [Spacing.elementsTail, List.append_assoc, List.singleton_append, afterItem,
    skipBlanks_append (s.isBlank_line level), skipBlanks_cons rfl]
  rfl

/-- After a comma there must be another item. -/
theorem afterItem_comma_eq (rest : List Char) : afterItem (',' :: rest) =
    match skipBlanks rest with
    | [] => fault .endOfValue [] 1
    | ']' :: rest => fault .trailingComma (']' :: rest) 1
    | next => .ok (true, next) :=
  rfl

/-- Behind a comma the next item must begin. -/
theorem afterItem_comma {c : Char} {tail rest : List Char} (hclose : c ≠ ']')
    (hrest : skipBlanks rest = c :: tail) : afterItem (',' :: rest) = .ok (true, c :: tail) := by
  rw [afterItem_comma_eq, hrest]
  split
  · next h => cases h
  · next h => exact absurd (List.cons.inj h).1 hclose
  · rfl

/-- After an item comes the next one, behind its comma. -/
theorem afterItem_next {x : β} (hx : StartsToken (text x)) (xs : List β) (rest : List Char) :
    afterItem (s.elementsTail level ']' text (x :: xs) ++ rest) =
      .ok (true, text x ++ (s.elementsTail level ']' text xs ++ rest)) := by
  have hskip : skipBlanks (s.line (level + 1) ++ _) = _ :=
    skipBlanks_line hx (s.elementsTail level ']' text xs ++ rest)
  obtain ⟨c, tail, heq, -, hclose, -⟩ := hx
  rw [heq, List.cons_append] at hskip
  rw [Spacing.elementsTail, List.cons_append, List.append_assoc, List.append_assoc, heq,
    List.cons_append, afterItem_comma hclose hskip]

/-- An array with an item is read from its first item on. -/
theorem readItems_cons {item : List Char → Except Fault (α × List Char)} {x : β}
    (hx : StartsToken (text x)) (xs : List β) (rest : List Char) :
    readItems item (s.elements level ']' text (x :: xs) ++ rest) =
      readItemsFrom item (text x ++ (s.elementsTail level ']' text xs ++ rest)).length
        (text x ++ (s.elementsTail level ']' text xs ++ rest)) := by
  have hskip : skipBlanks (s.line (level + 1) ++ _) = _ :=
    skipBlanks_line hx (s.elementsTail level ']' text xs ++ rest)
  obtain ⟨c, tail, heq, -, hclose, -⟩ := hx
  rw [Spacing.elements, List.append_assoc, List.append_assoc, readItems, hskip, heq,
    List.cons_append]
  split
  · next h => cases h
  · next h => exact absurd (List.cons.inj h).1 hclose
  · rfl

section

variable {item : List Char → Except Fault (α × List Char)}

/-- The last item ends the reading. -/
theorem readItemsFrom_closing {x : β} {a : α} (hx : Reads item (text x) a) (fuel : Nat)
    (rest : List Char) :
    readItemsFrom item (fuel + 1) (text x ++ (s.elementsTail level ']' text [] ++ rest)) =
      .ok ([a], rest) := by
  rw [readItemsFrom, hx _ (ended_elementsTail (.inl rfl) [] rest)]
  show (afterItem _ >>= _) = _
  rw [afterItem_closing]
  rfl

/-- One item is read, and then those after it. -/
theorem readItemsFrom_next {x y : β} {a : α} (hx : Reads item (text x) a)
    (hy : StartsToken (text y)) (ys : List β) (fuel : Nat) (rest : List Char) :
    readItemsFrom item (fuel + 1) (text x ++ (s.elementsTail level ']' text (y :: ys) ++ rest)) =
      (readItemsFrom item fuel (text y ++ (s.elementsTail level ']' text ys ++ rest))).map
        fun (others, rest) => (a :: others, rest) := by
  rw [readItemsFrom, hx _ (ended_elementsTail (.inl rfl) (y :: ys) rest)]
  show (afterItem _ >>= _) = _
  rw [afterItem_next hy]
  show (readItemsFrom item fuel _ >>= _) = _
  cases readItemsFrom item fuel (text y ++ (s.elementsTail level ']' text ys ++ rest)) <;> rfl

/-- The loop reads a first item and then the others, as long as it has fuel. -/
theorem readItemsFrom_of_reads {value : β → α} {xs : List β} {x : β} {fuel : Nat}
    (hfuel : xs.length < fuel) (hstart : ∀ y ∈ x :: xs, StartsToken (text y))
    (hread : ∀ y ∈ x :: xs, Reads item (text y) (value y)) (rest : List Char) :
    readItemsFrom item fuel (text x ++ (s.elementsTail level ']' text xs ++ rest)) =
      .ok ((x :: xs).map value, rest) := by
  induction xs generalizing x fuel with
  | nil =>
    obtain ⟨fuel, rfl⟩ := Nat.exists_eq_add_one_of_ne_zero (Nat.ne_of_gt hfuel)
    exact readItemsFrom_closing (hread x (List.mem_cons_self ..)) fuel rest
  | cons y ys ih =>
    obtain ⟨fuel, rfl⟩ := Nat.exists_eq_add_one_of_ne_zero (Nat.ne_zero_of_lt hfuel)
    rw [List.forall_mem_cons] at hstart hread
    rw [readItemsFrom_next hread.1 (hstart.2 y (List.mem_cons_self ..)),
      ih (Nat.lt_of_succ_lt_succ hfuel) hstart.2 hread.2]
    rfl

/-- **The items of an array** are read, if each of them is. -/
theorem reads_items {value : β → α} {xs : List β} (hstart : ∀ x ∈ xs, StartsToken (text x))
    (hread : ∀ x ∈ xs, Reads item (text x) (value x)) :
    Reads (readItems item) (s.elements level ']' text xs) (xs.map value) := by
  intro rest _
  cases xs with
  | nil => rfl
  | cons x xs =>
    rw [readItems_cons (hstart x (List.mem_cons_self ..))]
    exact readItemsFrom_of_reads (length_lt_elementsTail xs _ rest) hstart hread rest

section

variable {causes : Cause → Prop} {xs : List β}

/-- The loop stops at the first item that is refused. -/
theorem readItemsFrom_of_refuses {x : β} {fuel : Nat} (hfuel : xs.length < fuel)
    (hstart : ∀ y ∈ x :: xs, StartsToken (text y))
    (hread : ∀ y ∈ x :: xs, (∃ a, Reads item (text y) a) ∨ Refuses item (text y) causes)
    (hrefused : ∃ y ∈ x :: xs, Refuses item (text y) causes) (rest : List Char) :
    Refused causes
      (readItemsFrom item fuel (text x ++ (s.elementsTail level ']' text xs ++ rest))) := by
  induction xs generalizing x fuel with
  | nil =>
    obtain ⟨fuel, rfl⟩ := Nat.exists_eq_add_one_of_ne_zero (Nat.ne_of_gt hfuel)
    obtain ⟨y, hy, hrefuses⟩ := hrefused
    obtain rfl := List.mem_singleton.mp hy
    exact (hrefuses _ (ended_elementsTail (.inl rfl) [] rest)).bind _
  | cons y ys ih =>
    obtain ⟨fuel, rfl⟩ := Nat.exists_eq_add_one_of_ne_zero (Nat.ne_zero_of_lt hfuel)
    rw [List.forall_mem_cons] at hstart hread
    rcases hread.1 with ⟨a, hx⟩ | hx
    · -- the first item is read, so that the refused one is among the others
      have hothers := ((List.exists_mem_cons_iff ..).mp hrefused).resolve_left hx.not_refuses
      rw [readItemsFrom_next hx (hstart.2 y (List.mem_cons_self ..))]
      exact (ih (Nat.lt_of_succ_lt_succ hfuel) hstart.2 hread.2 hothers).map _
    · exact (hx _ (ended_elementsTail (.inl rfl) (y :: ys) rest)).bind _

/-- **An array is refused** if one of its items is and all others are read. -/
theorem refuses_items (hstart : ∀ x ∈ xs, StartsToken (text x))
    (hread : ∀ x ∈ xs, (∃ a, Reads item (text x) a) ∨ Refuses item (text x) causes)
    (hrefused : ∃ x ∈ xs, Refuses item (text x) causes) :
    Refuses (readItems item) (s.elements level ']' text xs) causes := by
  intro rest _
  cases xs with
  | nil =>
    obtain ⟨x, hx, -⟩ := hrefused
    cases hx
  | cons x xs =>
    rw [readItems_cons (hstart x (List.mem_cons_self ..))]
    exact readItemsFrom_of_refuses (length_lt_elementsTail xs _ rest) hstart hread hrefused rest

end

end

/-! ## Objects -/

/-- After the last member comes the closing brace. -/
theorem afterMember_closing (rest : List Char) :
    afterMember (s.elementsTail level '}' text [] ++ rest) = .ok (false, rest) := by
  rw [Spacing.elementsTail, List.append_assoc, List.singleton_append, afterMember,
    skipBlanks_append (s.isBlank_line level), skipBlanks_cons rfl]
  rfl

/-- After a comma there must be another member. -/
theorem afterMember_comma_eq (rest : List Char) : afterMember (',' :: rest) =
    match skipBlanks rest with
    | [] => fault .endOfValue [] 1
    | '}' :: rest => fault .trailingComma ('}' :: rest) 1
    | next => .ok (true, next) :=
  rfl

/-- Behind a comma the next member must begin. -/
theorem afterMember_comma {c : Char} {tail rest : List Char} (hclose : c ≠ '}')
    (hrest : skipBlanks rest = c :: tail) :
    afterMember (',' :: rest) = .ok (true, c :: tail) := by
  rw [afterMember_comma_eq, hrest]
  split
  · next h => cases h
  · next h => exact absurd (List.cons.inj h).1 hclose
  · rfl

/-- A member begins with the quote of its name. -/
theorem startsToken_member (key : String) (value : List Char) :
    StartsToken (s.member key value) := startsToken_append (startsToken_quote key) _

/-- The name of a member is read up to its colon. -/
theorem readKey_member (key : String) (value rest : List Char) :
    readKey (s.member key value ++ rest) = .ok (key, ':' :: (s.colon ++ value) ++ rest) := by
  have hread := readString_quoted key.toList (':' :: (s.colon ++ value) ++ rest)
  rw [Spacing.member, quote, List.cons_append, List.cons_append, List.append_assoc,
    List.append_assoc]
  show (readString _).map _ = _
  rw [List.cons_append, List.nil_append, hread]
  show Except.ok (String.ofList key.toList, _) = _
  rw [String.ofList_toList]

section

variable {key : β → String} {body : β → List Char}

/-- The members of an object after the first one, each made of a key and a text. -/
abbrev membersTail (s : Spacing) (level : Nat) (key : β → String) (body : β → List Char) :=
  s.elementsTail level '}' fun x => s.member (key x) (body x)

/-- After a member comes the next one, behind its comma. -/
theorem afterMember_next (x : β) (xs : List β) (rest : List Char) :
    afterMember (membersTail s level key body (x :: xs) ++ rest) =
      .ok (true, s.member (key x) (body x) ++ (membersTail s level key body xs ++ rest)) := by
  have hx := startsToken_member (s := s) (key x) (body x)
  have hskip : skipBlanks (s.line (level + 1) ++ _) = _ :=
    skipBlanks_line hx (membersTail s level key body xs ++ rest)
  obtain ⟨c, tail, heq, -, -, hclose⟩ := hx
  rw [heq, List.cons_append] at hskip
  rw [membersTail, Spacing.elementsTail, List.cons_append, List.append_assoc, List.append_assoc,
    heq, List.cons_append, afterMember_comma hclose hskip]

variable {member : σ → String → List Char → Except Fault (σ × List Char)}

/-- An object with a member is read from its first member on. -/
theorem readMembers_cons (start : σ) (x : β) (xs : List β) (rest : List Char) :
    readMembers member start
        (s.elements level '}' (fun x => s.member (key x) (body x)) (x :: xs) ++ rest) =
      readMembersFrom member
        (s.member (key x) (body x) ++ (membersTail s level key body xs ++ rest)).length start
        (s.member (key x) (body x) ++ (membersTail s level key body xs ++ rest)) := by
  have hx := startsToken_member (s := s) (key x) (body x)
  have hskip : skipBlanks (s.line (level + 1) ++ _) = _ :=
    skipBlanks_line hx (membersTail s level key body xs ++ rest)
  obtain ⟨c, tail, heq, -, -, hclose⟩ := hx
  rw [Spacing.elements, List.append_assoc, List.append_assoc, readMembers, hskip, heq,
    List.cons_append]
  split
  · next h => cases h
  · next h => exact absurd (List.cons.inj h).1 hclose
  · rfl

/-- The last member ends the reading. -/
theorem readMembersFrom_closing {before after : σ} {x : β}
    (hx : Reads (member before (key x)) (':' :: (s.colon ++ body x)) after) (fuel : Nat)
    (rest : List Char) :
    readMembersFrom member (fuel + 1) before
        (s.member (key x) (body x) ++ (membersTail s level key body [] ++ rest)) =
      .ok (after, rest) := by
  rw [readMembersFrom, readKey_member]
  show (member before (key x) _ >>= _) = _
  rw [hx _ (ended_elementsTail (.inr rfl) [] rest)]
  show (afterMember _ >>= _) = _
  rw [afterMember_closing]
  rfl

/-- One member is read, and then those after it. -/
theorem readMembersFrom_next {before after : σ} {x : β}
    (hx : Reads (member before (key x)) (':' :: (s.colon ++ body x)) after) (y : β) (ys : List β)
    (fuel : Nat) (rest : List Char) :
    readMembersFrom member (fuel + 1) before
        (s.member (key x) (body x) ++ (membersTail s level key body (y :: ys) ++ rest)) =
      readMembersFrom member fuel after
        (s.member (key y) (body y) ++ (membersTail s level key body ys ++ rest)) := by
  rw [readMembersFrom, readKey_member]
  show (member before (key x) _ >>= _) = _
  rw [hx _ (ended_elementsTail (.inr rfl) (y :: ys) rest)]
  show (afterMember _ >>= _) = _
  rw [afterMember_next]
  rfl

/-- A member that is refused ends the reading, whatever comes after it. -/
theorem readMembersFrom_refused {causes : Cause → Prop} {before : σ} {x : β}
    (hx : Refuses (member before (key x)) (':' :: (s.colon ++ body x)) causes) (xs : List β)
    (fuel : Nat) (rest : List Char) :
    Refused causes (readMembersFrom member (fuel + 1) before
      (s.member (key x) (body x) ++ (membersTail s level key body xs ++ rest))) := by
  rw [readMembersFrom, readKey_member]
  exact (hx _ (ended_elementsTail (.inr rfl) xs rest)).bind _

/-- Members that are read one after the other, with the state before and after them. -/
inductive MembersRead (s : Spacing) (key : β → String) (body : β → List Char)
    (member : σ → String → List Char → Except Fault (σ × List Char)) : σ → List β → σ → Prop
  | nil (state : σ) : MembersRead s key body member state [] state
  | cons {before between after : σ} {x : β} {xs : List β} :
    Reads (member before (key x)) (':' :: (s.colon ++ body x)) between →
    MembersRead s key body member between xs after →
    MembersRead s key body member before (x :: xs) after

/-- The loop reads a first member and then the others, as long as it has fuel. -/
theorem readMembersFrom_of_reads {before after : σ} {x : β} {xs : List β} {fuel : Nat}
    (hfuel : xs.length < fuel) (h : MembersRead s key body member before (x :: xs) after)
    (rest : List Char) :
    readMembersFrom member fuel before
        (s.member (key x) (body x) ++ (membersTail s level key body xs ++ rest)) =
      .ok (after, rest) := by
  -- each member takes up some of the fuel, of which there is more than there are members
  induction xs generalizing x fuel before with
  | nil =>
    obtain ⟨fuel, rfl⟩ := Nat.exists_eq_add_one_of_ne_zero (Nat.ne_of_gt hfuel)
    cases h with
    | cons hx hnil =>
      cases hnil
      exact readMembersFrom_closing hx fuel rest
  | cons y ys ih =>
    obtain ⟨fuel, rfl⟩ := Nat.exists_eq_add_one_of_ne_zero (Nat.ne_zero_of_lt hfuel)
    cases h with
    | cons hx hothers =>
      rw [readMembersFrom_next hx]
      exact ih (Nat.lt_of_succ_lt_succ hfuel) hothers

/-- **The members of an object** are read, if each of them is read in the state that those
before it lead to. -/
theorem reads_members {before after : σ} {xs : List β}
    (h : MembersRead s key body member before xs after) :
    Reads (readMembers member before)
      (s.elements level '}' (fun x => s.member (key x) (body x)) xs) after := by
  intro rest _
  cases xs with
  | nil =>
    cases h
    rfl
  | cons x xs =>
    rw [readMembers_cons]
    exact readMembersFrom_of_reads (length_lt_elementsTail xs _ rest) h rest

section

variable {causes : Cause → Prop} {xs : List β}

/-- Members one of which is refused, in the state that those before it lead to. -/
inductive MembersRefused (s : Spacing) (key : β → String) (body : β → List Char)
    (member : σ → String → List Char → Except Fault (σ × List Char)) (causes : Cause → Prop) :
    σ → List β → Prop
  | here {before : σ} {x : β} {xs : List β} :
    Refuses (member before (key x)) (':' :: (s.colon ++ body x)) causes →
    MembersRefused s key body member causes before (x :: xs)
  | there {before between : σ} {x : β} {xs : List β} :
    Reads (member before (key x)) (':' :: (s.colon ++ body x)) between →
    MembersRefused s key body member causes between xs →
    MembersRefused s key body member causes before (x :: xs)

/-- If a member can be refused or read in any state, one that is refused is enough. -/
theorem membersRefused_of_exists
    (hread : ∀ x ∈ xs,
      (∀ before, ∃ after, Reads (member before (key x)) (':' :: (s.colon ++ body x)) after) ∨
      ∀ before, Refuses (member before (key x)) (':' :: (s.colon ++ body x)) causes)
    (hrefused : ∃ x ∈ xs,
      ∀ before, Refuses (member before (key x)) (':' :: (s.colon ++ body x)) causes)
    (before : σ) : MembersRefused s key body member causes before xs := by
  induction xs generalizing before with
  | nil =>
    obtain ⟨x, hx, -⟩ := hrefused
    cases hx
  | cons x xs ih =>
    rw [List.forall_mem_cons] at hread
    rcases hread.1 with hx | hx
    · -- the first member is read, so that the refused one is among the others
      obtain ⟨after, hafter⟩ := hx before
      have hothers := ((List.exists_mem_cons_iff ..).mp hrefused).resolve_left
        fun hrefuses => hafter.not_refuses (hrefuses before)
      exact .there hafter (ih hread.2 hothers after)
    · exact .here (hx before)

/-- The loop stops at the member that is refused. -/
theorem readMembersFrom_of_refused {before : σ} {x : β} {fuel : Nat} (hfuel : xs.length < fuel)
    (h : MembersRefused s key body member causes before (x :: xs)) (rest : List Char) :
    Refused causes (readMembersFrom member fuel before
      (s.member (key x) (body x) ++ (membersTail s level key body xs ++ rest))) := by
  obtain ⟨fuel, rfl⟩ := Nat.exists_eq_add_one_of_ne_zero (Nat.ne_zero_of_lt hfuel)
  induction xs generalizing x fuel before with
  | nil =>
    cases h with
    | here hx => exact readMembersFrom_refused hx [] fuel rest
    | there _ hothers => cases hothers
  | cons y ys ih =>
    cases h with
    | here hx => exact readMembersFrom_refused hx (y :: ys) fuel rest
    | there hx hothers =>
      obtain ⟨fuel, rfl⟩ := Nat.exists_eq_add_one_of_ne_zero
        (Nat.ne_zero_of_lt (Nat.lt_of_succ_lt_succ hfuel))
      rw [readMembersFrom_next hx]
      exact ih hothers fuel (Nat.lt_of_succ_lt_succ hfuel)

/-- **An object is refused** if one of its members is. -/
theorem refuses_members {start : σ} (h : MembersRefused s key body member causes start xs) :
    Refuses (readMembers member start)
      (s.elements level '}' (fun x => s.member (key x) (body x)) xs) causes := by
  intro rest _
  cases xs with
  | nil => cases h
  | cons x xs =>
    rw [readMembers_cons]
    exact readMembersFrom_of_refused (length_lt_elementsTail xs _ rest) h rest

end

end

end Mosaic.Json
