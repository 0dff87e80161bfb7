import Mosaic.Proofs.Tsx.Constant
import Mosaic.Proofs.Tsx.Operands
import Mosaic.Tsx.Program

/-!
# Reading written values

The compact text of a value is an expression, as long as something that closes it stands behind
it. The elements of a container are read in a loop, one in each round; the loop is bounded by the
text, which is longer than the number of elements. Each container takes one level of the grammar.

* `exists_front`: what stands at the front of a value.
* `run_elements`: a loop over the elements of a container.
* `run_arrayLiteral`, `run_objectLiteral`: containers, given that their elements are read.
* `run_assignmentAt`: all values.
-/

namespace Mosaic.Tsx

open Rule Nesting
open Json (compactChars)
open Json.Spacing (tight elements elementsTail)

variable {text rest : Text} {token : Token} (g : Nesting) (place : Place)

/-! ## The front of a value -/

theorem front_null (hrest : Closing rest) :
    Front (Json.null.compactChars ++ rest) (.word "null") rest := by
  have hword : IsWord "null" := by decide
  exact front_word hword hrest.separated

theorem front_bool (b : Bool) (hrest : Closing rest) :
    Front ((Json.bool b).compactChars ++ rest) (.word (if b then "true" else "false")) rest := by
  have htrue : IsWord "true" := by decide
  have hfalse : IsWord "false" := by decide
  cases b with
  | true => exact front_word htrue hrest.separated
  | false => exact front_word hfalse hrest.separated

theorem front_bracket (rest : Text) : Front ('[' :: rest) (.sign "[") rest :=
  front_jsonSign (by decide) rest

theorem front_brace (rest : Text) : Front ('{' :: rest) (.sign openBrace) rest :=
  front_jsonSign (by decide) rest

/-- The tokens at which an array neither ends nor goes on to the next item. -/
def BeginsItem (token : Token) : Prop :=
  token ≠ .sign "]" ∧ token ≠ .sign "," ∧ token ≠ .sign "..."

/-- What stands at the front of a value. -/
theorem exists_front {kind : Int → Prop} {value : Json} (h : Json.Integral kind value)
    (hrest : Closing rest) :
    ∃ token after, Front (value.compactChars ++ rest) token after ∧ BeginsItem token := by
  cases h with
  | null => exact ⟨_, rest, front_null hrest, by simp [BeginsItem]⟩
  | bool b => exact ⟨_, rest, front_bool b hrest, by simp [BeginsItem]⟩
  | @number n _ =>
    rw [compactChars, Json.Number.text, Json.integerText]
    split
    · exact ⟨_, _, front_minus n.natAbs rest, by simp [BeginsItem]⟩
    · exact ⟨_, rest, front_digits n.natAbs hrest.separated, by simp [BeginsItem]⟩
  | string s => exact ⟨_, rest, front_quote s rest, by simp [BeginsItem]⟩
  | array => exact ⟨_, _, front_bracket _, by simp [BeginsItem]⟩
  | object => exact ⟨_, _, front_brace _, by simp [BeginsItem, openBrace]⟩

/-! ## Loops over elements -/

section

variable {β ε : Type} {step : List ε → Rule (Bool × List ε)} {chars : β → Text} {tree : β → ε}
  {close : Char} {xs : List β} (hclose : close ≠ ',')
  (hstep : ∀ found, ∀ x ∈ xs, ∀ c tail, c = ',' ∨ c = close →
    (step found).run (chars x ++ c :: tail) = some ((decide (c = ','), found ++ [tree x]), tail))
include hclose hstep

theorem run_elementsTail {x : β} {more : List β} (hxs : x :: more ⊆ xs) (found : List ε)
    {bound : Text} (hbound : more.length ≤ bound.length) :
    (repeatFrom step bound found).run
      (chars x ++ (tight.elementsTail 0 close chars more ++ rest)) =
        some (found ++ (x :: more).map tree, rest) := by
  -- Each round consumes an element and one character of the bound.
  induction more generalizing x found bound with
  | nil =>
    have hround := hstep found x (hxs (List.mem_cons_self ..)) close rest (.inr rfl)
    rw [decide_eq_false hclose] at hround
    exact run_repeatFrom_of_last hround bound
  | cons y more ih =>
    have hrest : y :: more ⊆ xs := fun z hz => hxs (List.mem_cons_of_mem _ hz)
    cases bound with
    | nil => cases hbound
    | cons c bound =>
      have hround := hstep found x (hxs (List.mem_cons_self ..)) ','
        (chars y ++ (tight.elementsTail 0 close chars more ++ rest)) (.inl rfl)
      have hnext := ih hrest (found ++ [tree x]) (Nat.le_of_succ_le_succ hbound)
      have htext : tight.elementsTail 0 close chars (y :: more) ++ rest =
          ',' :: (chars y ++ (tight.elementsTail 0 close chars more ++ rest)) :=
        congrArg (',' :: ·) (List.append_assoc (chars y) _ rest)
      rw [decide_eq_true rfl] at hround
      rw [htext, run_repeatFrom_of_more hround, hnext, List.append_assoc]
      rfl

/-- A loop that reads one element in each round reads all of them. -/
theorem run_elements (hempty : (step []).run (close :: rest) = some ((false, []), rest)) :
    (iterate step []).run (tight.elements 0 close chars xs ++ rest) =
      some (xs.map tree, rest) := by
  rw [run_iterate]
  cases xs with
  | nil => exact run_repeatFrom_of_last hempty _
  | cons x more =>
    have htext : tight.elements 0 close chars (x :: more) ++ rest =
        chars x ++ (tight.elementsTail 0 close chars more ++ rest) :=
      List.append_assoc (chars x) _ rest
    have hbound : more.length ≤
        (chars x ++ (tight.elementsTail 0 close chars more ++ rest)).length := by
      have htail : more.length ≤ (tight.elementsTail 0 close chars more).length :=
        Json.Spacing.length_le_length_elementsTail chars more
      simp only [List.length_append]
      omega
    rw [htext]
    exact run_elementsTail hclose hstep (List.Subset.refl _) [] hbound

end

/-! ## Containers -/

/-- A round of the loop over the elements of an array. -/
def arrayStep (children : List Expr) : Rule (Bool × List Expr) := do
  let children := children ++ (← commentsAhead).map .comment
  if ← acceptSign "]" then return (false, children)
  if ← acceptSign "," then return (true, children)
  let element ← g.arrayElement
  let children := children ++ element :: (← commentsAhead).map .comment
  if ← acceptSign "," then return (true, children)
  sign "]"
  return (false, children)

theorem arrayLiteral_eq : g.arrayLiteral = (do
    sign "["
    return .array (← iterate (arrayStep g) [])) :=
  rfl

/-- A round of the loop over the members of an object. -/
def objectStep (members : List Member) : Rule (Bool × List Member) := do
  let members := members ++ (← commentsAhead).map .comment
  if ← acceptSign closeBrace then return (false, members)
  if ← acceptSign "," then return (true, members)
  let member ← g.objectMember
  let members := members ++ member :: (← commentsAhead).map .comment
  if ← acceptSign "," then return (true, members)
  sign closeBrace
  return (false, members)

theorem objectLiteral_eq : g.objectLiteral = (do
    sign openBrace
    return .object (← iterate (objectStep g) [])) :=
  rfl

/-- What stands behind an element is a lexeme and closes the element. -/
theorem front_after {c close : Char} (hclose : close = ']' ∨ close = '}') (hc : c = ',' ∨ c = close)
    (rest : Text) : Front (c :: rest) (.sign (String.ofList [c])) rest ∧ Closing (c :: rest) := by
  rcases hclose with rfl | rfl <;> rcases hc with rfl | rfl <;>
    exact ⟨front_jsonSign (by decide) rest, _, rest, rfl, by decide⟩

section

variable {kind : Int → Prop} {value : Json} {c : Char} (hvalue : Json.Integral kind value)
  (hread : ∀ tail, Closing tail →
    g.assignment.run (value.compactChars ++ tail) = some (.ofJson value, tail))
include hvalue hread

/-- A round reads an item and the sign behind it, and a comma asks for another round. -/
theorem run_arrayStep (children : List Expr) (hc : c = ',' ∨ c = ']') (rest : Text) :
    (arrayStep g children).run (value.compactChars ++ c :: rest) =
      some ((decide (c = ','), children ++ [.ofJson value]), rest) := by
  obtain ⟨hafter, hclosing⟩ := front_after (.inl rfl) hc rest
  -- The round looks at the front of the item three times, and twice at what is behind it.
  obtain ⟨token, next, hfront, hbracket, hcomma, hspread⟩ := exists_front hvalue hclosing
  obtain ⟨start, hpeek⟩ := run_peek hfront
  obtain ⟨start', hpeek'⟩ := run_peek hafter
  have helement : g.arrayElement.run (value.compactChars ++ c :: rest) =
      some (.ofJson value, c :: rest) := by
    simp [arrayElement, run_acceptSign hfront, hspread, hread _ hclosing]
  rcases hc with rfl | rfl <;>
    simp [arrayStep, commentsAhead, hpeek, run_acceptSign hfront, hbracket, hcomma, helement,
      hpeek', run_acceptSign hafter, run_sign hafter]

/-- A member is its key and its value with a colon between them. -/
theorem run_objectMember (key : String) {tail : Text} (htail : Closing tail) :
    g.objectMember.run (Json.quote key ++ ':' :: (value.compactChars ++ tail)) =
      some (.pair (.string (escaped key)) (.ofJson value) [], tail) := by
  have hquote := front_quote key (':' :: (value.compactChars ++ tail))
  have hcolon : Front (':' :: (value.compactChars ++ tail)) (.sign ":")
      (value.compactChars ++ tail) := front_jsonSign (by decide) _
  obtain ⟨token, next, hfront, -⟩ := exists_front hvalue htail
  obtain ⟨start, hnext⟩ := run_next hquote
  obtain ⟨start', hpeek⟩ := run_peek hcolon
  obtain ⟨start'', hpeek'⟩ := run_peek hfront
  have hkey : g.key.run (Json.quote key ++ ':' :: (value.compactChars ++ tail)) =
      some (.string (escaped key), ':' :: (value.compactChars ++ tail)) := by
    simp [Nesting.key, hnext]
  have hpair : g.pair.run (Json.quote key ++ ':' :: (value.compactChars ++ tail)) =
      some (.pair (.string (escaped key)) (.ofJson value) [], tail) := by
    simp [pair, hkey, commentsAhead, hpeek, run_sign hcolon, hpeek', hread tail htail]
  have hspread : (acceptSign "...").run (Json.quote key ++ ':' :: (value.compactChars ++ tail)) =
      some (false, Json.quote key ++ ':' :: (value.compactChars ++ tail)) := by
    rw [run_acceptSign hquote, if_neg (by simp)]
  -- A pair is tried first, so that nothing else a member may be is of interest.
  rw [objectMember, run_bind_of_run hspread]
  exact run_orElse_of_run hpair _

/-- A round reads a member and the sign behind it, and a comma asks for another round. -/
theorem run_objectStep (key : String) (members : List Member) (hc : c = ',' ∨ c = '}')
    (rest : Text) :
    (objectStep g members).run (Json.quote key ++ ':' :: (value.compactChars ++ c :: rest)) =
      some ((decide (c = ','), members ++ [.pair (.string (escaped key)) (.ofJson value) []]),
        rest) := by
  obtain ⟨hafter, hclosing⟩ := front_after (.inr rfl) hc rest
  have hquote := front_quote key (':' :: (value.compactChars ++ c :: rest))
  have hmember := run_objectMember g hvalue hread key hclosing
  obtain ⟨start, hpeek⟩ := run_peek hquote
  obtain ⟨start', hpeek'⟩ := run_peek hafter
  rcases hc with rfl | rfl <;>
    simp [objectStep, commentsAhead, hpeek, run_acceptSign hquote, hmember, hpeek',
      run_acceptSign hafter, run_sign hafter, closeBrace]

end

section

variable {kind : Int → Prop}

/-- **An array** is read if its items are. -/
theorem run_arrayLiteral {items : List Json} (hitems : ∀ item ∈ items, Json.Integral kind item)
    (hread : ∀ item ∈ items, ∀ tail, Closing tail →
      g.assignment.run (item.compactChars ++ tail) = some (.ofJson item, tail))
    (hfront : Front text (.sign "[") (Json.compactItems items ++ rest)) :
    g.arrayLiteral.run text = some (.array (Expr.ofItems items), rest) := by
  have hclose : Front (']' :: rest) (.sign "]") rest := front_jsonSign (by decide) rest
  obtain ⟨start, hpeek⟩ := run_peek hclose
  have hempty : (arrayStep g []).run (']' :: rest) = some ((false, []), rest) := by
    simp [arrayStep, commentsAhead, hpeek, run_acceptSign hclose]
  have hloop : (iterate (arrayStep g) []).run (Json.compactItems items ++ rest) =
      some (items.map .ofJson, rest) := by
    rw [Json.Spacing.compactItems_eq 0]
    exact run_elements (by decide) (fun children item hitem c tail hc =>
      run_arrayStep g (hitems item hitem) (hread item hitem) children hc tail) hempty
  have hsign : (sign "[").run text = some ((), Json.compactItems items ++ rest) := by
    rw [run_sign hfront, if_pos rfl]
  rw [arrayLiteral_eq, run_bind_of_run hsign, run_bind_of_run hloop, Expr.ofItems_eq_map]
  rfl

/-- **An object** is read if the values of its members are. -/
theorem run_objectLiteral {members : List (String × Json)}
    (hmembers : ∀ member ∈ members, Json.Integral kind member.2)
    (hread : ∀ member ∈ members, ∀ tail, Closing tail →
      g.assignment.run (member.2.compactChars ++ tail) = some (.ofJson member.2, tail))
    (hfront : Front text (.sign openBrace) (Json.compactMembers members ++ rest)) :
    g.objectLiteral.run text = some (.object (Expr.ofMembers members), rest) := by
  have hclose : Front ('}' :: rest) (.sign closeBrace) rest := front_jsonSign (by decide) rest
  obtain ⟨start, hpeek⟩ := run_peek hclose
  have hempty : (objectStep g []).run ('}' :: rest) = some ((false, []), rest) := by
    simp [objectStep, commentsAhead, hpeek, run_acceptSign hclose]
  have hloop : (iterate (objectStep g) []).run (Json.compactMembers members ++ rest) =
      some (members.map fun member =>
        .pair (.string (escaped member.1)) (.ofJson member.2) [], rest) := by
    -- The text of a member ends with its value, behind which the round goes on reading.
    rw [Json.Spacing.compactMembers_eq 0]
    refine run_elements (by decide) (fun found member hmember c tail hc => ?_) hempty
    have htext : tight.member member.1 (compactChars member.2) ++ c :: tail =
        Json.quote member.1 ++ ':' :: (compactChars member.2 ++ c :: tail) :=
      List.append_assoc (Json.quote member.1) _ _
    rw [htext]
    exact run_objectStep g (hmembers member hmember) (hread member hmember) member.1 found hc tail
  have hsign : (sign openBrace).run text = some ((), Json.compactMembers members ++ rest) := by
    rw [run_sign hfront, if_pos rfl]
  rw [objectLiteral_eq, run_bind_of_run hsign, run_bind_of_run hloop, Expr.ofMembers_eq_map]
  rfl

end

/-- A literal is tried before the pattern that may begin in the same way. -/
theorem run_primary_array {items : List Expr} {after : Text}
    (hfront : Front text (.sign "[") after)
    (hliteral : g.arrayLiteral.run text = some (.array items, rest)) :
    g.primary.run text = some (.array items, rest) := by
  obtain ⟨start, hpeek⟩ := run_peek hfront
  have hchoice : (literalOrPattern g.arrayLiteral g.arrayPattern).run text =
      some (.array items, rest) := run_orElse_of_run hliteral _
  simp [primary, hpeek, hchoice]

theorem run_primary_object {members : List Member} {after : Text}
    (hfront : Front text (.sign openBrace) after)
    (hliteral : g.objectLiteral.run text = some (.object members, rest)) :
    g.primary.run text = some (.object members, rest) := by
  obtain ⟨start, hpeek⟩ := run_peek hfront
  have hchoice : (literalOrPattern g.objectLiteral g.objectPattern).run text =
      some (.object members, rest) := run_orElse_of_run hliteral _
  simp [primary, hpeek, hchoice, openBrace]

/-! ## All values -/

/-- A text, perhaps with a blank before it. -/
def Led (text chars : Text) : Prop := text = chars ∨ text = ' ' :: chars

theorem Front.of_led {chars after : Text} (h : Front chars token after) (hled : Led text chars) :
    Front text token after := by
  rcases hled with rfl | rfl
  · exact h
  · exact front_space h

/-- **The compact text of a value** is read as the tree of the value. -/
theorem run_assignmentAt {kind : Int → Prop} {value : Json} (h : Json.Integral kind value)
    {depth : Nat} (hdepth : value.depth < depth) (place : Place) (hrest : Closing rest)
    (hled : Led text (value.compactChars ++ rest)) :
    ((grammar depth).assignmentAt place).run text = some (.ofJson value, rest) := by
  -- The elements of a container are read one level deeper, where the hypothesis is about them.
  induction depth generalizing value place text rest with
  | zero => cases hdepth
  | succ depth ih =>
    cases h with
    | null =>
      have hfront := (front_null hrest).of_led hled
      have hprimary := run_primary_null (grammar depth) hfront
      exact run_assignmentRule _ place hfront (.word (.inl rfl) hrest) hrest hprimary
    | bool b =>
      have hfront := (front_bool b hrest).of_led hled
      have hprimary := run_primary_bool (grammar depth) b hfront
      have hword : (if b then "true" else "false") = "true" ∨
          (if b then "true" else "false") = "false" := by cases b <;> simp
      exact run_assignmentRule _ place hfront (.word (.inr hword) hrest) hrest hprimary
    | @number n hn =>
      rw [compactChars, Json.Number.text, Json.integerText] at hled
      rw [Expr.ofJson, Expr.ofNumber, Expr.ofInteger]
      -- A literal has no sign, so that a negative integer is an operator with its operand.
      by_cases hneg : n < 0
      · rw [if_pos hneg] at hled ⊢
        have hfront := (front_minus n.natAbs rest).of_led hled
        exact run_assignmentRule_minus (grammar depth) place hfront hrest
      · rw [if_neg hneg] at hled ⊢
        have hfront := (front_digits n.natAbs hrest.separated).of_led hled
        have hprimary := run_primary_number (grammar depth) hfront
        exact run_assignmentRule _ place hfront (.number _ _) hrest hprimary
    | string s =>
      rw [compactChars] at hled
      have hfront := (front_quote s rest).of_led hled
      have hprimary := run_primary_string (grammar depth) hfront
      rw [Expr.ofJson]
      exact run_assignmentRule _ place hfront (.string _ _) hrest hprimary
    | @array items hitems =>
      rw [Json.depth, Nat.succ_lt_succ_iff] at hdepth
      have hread : ∀ item ∈ items, ∀ tail, Closing tail →
          (grammar depth).assignment.run (item.compactChars ++ tail) = some (.ofJson item, tail) := by
        intro item hitem tail htail
        have hitemDepth := Json.depthItems_le_iff.mp (Nat.le_refl _) item hitem
        exact ih (hitems item hitem) (by omega) _ htail (.inl rfl)
      rw [compactChars] at hled
      have hfront := (front_bracket (Json.compactItems items ++ rest)).of_led hled
      have hprimary := run_primary_array _ hfront (run_arrayLiteral _ hitems hread hfront)
      rw [Expr.ofJson]
      exact run_assignmentRule _ place hfront (.bracket _) hrest hprimary
    | @object members _ hmembers =>
      rw [Json.depth, Nat.succ_lt_succ_iff] at hdepth
      have hread : ∀ member ∈ members, ∀ tail, Closing tail →
          (grammar depth).assignment.run (member.2.compactChars ++ tail) =
            some (.ofJson member.2, tail) := by
        intro member hmember tail htail
        have hmemberDepth := Json.depthMembers_le_iff.mp (Nat.le_refl _) member hmember
        exact ih (hmembers member hmember) (by omega) _ htail (.inl rfl)
      rw [compactChars] at hled
      have hfront := (front_brace (Json.compactMembers members ++ rest)).of_led hled
      have hprimary := run_primary_object _ hfront (run_objectLiteral _ hmembers hread hfront)
      rw [Expr.ofJson]
      exact run_assignmentRule _ place hfront (.brace _) hrest hprimary

end Mosaic.Tsx
