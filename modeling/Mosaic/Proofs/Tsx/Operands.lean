import Mosaic.Proofs.Tsx.Rules
import Mosaic.Tsx.Grammar.Expressions

/-!
# Operands and what may stand around them

An expression is an operand with operators, accesses and assertions around it. Each of these shows
by its first lexeme. Where none of them does, the expression is the operand alone.

* `Closing.front`, `run_operatorsRest`: the signs behind a value go on with no expression.
* `Opens`, `run_prefixed`: what begins a value is no operator.
* `run_assignmentRule`: an operand that is an expression on its own.
* `run_assignmentRule_minus`: the same behind a minus sign.
-/

namespace Mosaic.Tsx

open Rule Nesting

variable {text rest : Text} {token : Token} (g : Nesting) (place : Place)

/-! ## The end of an expression -/

/-- What closes a value is one of four signs. -/
theorem Closing.front (h : Closing text) :
    ∃ s tail, (s = "," ∨ s = "]" ∨ s = closeBrace ∨ s = ";") ∧ Front text (.sign s) tail := by
  obtain ⟨c, tail, rfl, hc⟩ := h
  have hfront : ∀ d ∈ jsonSigns, Front (d :: tail) (.sign (String.ofList [d])) tail :=
    fun d hd => front_jsonSign hd tail
  rcases hc with rfl | rfl | rfl | rfl
  · exact ⟨",", tail, .inl rfl, hfront ',' (by decide)⟩
  · exact ⟨"]", tail, .inr (.inl rfl), hfront ']' (by decide)⟩
  · exact ⟨closeBrace, tail, .inr (.inr (.inl rfl)), hfront '}' (by decide)⟩
  · exact ⟨";", tail, .inr (.inr (.inr rfl)), hfront ';' (by decide)⟩

section

variable (h : Closing text) (operand : Expr)
include h

/-- No access, call or assertion begins with a closing sign. -/
theorem run_postfixStep :
    (g.postfixStep place operand).run text = some ((false, operand), text) := by
  obtain ⟨s, tail, hs, hfront⟩ := h.front
  obtain ⟨start, hpeek⟩ := run_peek hfront
  rcases hs with rfl | rfl | rfl | rfl <;> simp [postfixStep, hpeek, closeBrace]

theorem run_typeAssertion : (g.typeAssertion place).run text = none := by
  obtain ⟨s, tail, hs, hfront⟩ := h.front
  obtain ⟨start, hpeek⟩ := run_peek hfront
  simp [typeAssertion, hpeek, run_acceptWord hfront, run_word hfront]

theorem run_binaryOperator : binaryOperator.run text = none := by
  obtain ⟨s, tail, hs, hfront⟩ := h.front
  obtain ⟨start, hpeek⟩ := run_peek hfront
  rcases hs with rfl | rfl | rfl | rfl <;> simp [binaryOperator, hpeek, binarySigns, closeBrace]

theorem run_assignmentOperator : assignmentOperator.run text = none := by
  obtain ⟨s, tail, hs, hfront⟩ := h.front
  obtain ⟨start, hpeek⟩ := run_peek hfront
  rcases hs with rfl | rfl | rfl | rfl <;>
    simp [assignmentOperator, hpeek, assignmentSigns, closeBrace]

/-- An expression ends at a closing sign. -/
theorem run_operatorsRest : (g.operatorsRest place operand).run text = some (operand, text) := by
  have hbinary : (g.binaryRest place operand).run text = some (operand, text) := by
    refine run_iterate_of_last ?_
    simp [run_attempt_of_failure (run_typeAssertion g place h),
      run_attempt_of_failure (run_binaryOperator h)]
  obtain ⟨s, tail, hs, hfront⟩ := h.front
  have hchoice : (acceptSign "?").run text = some (false, text) := by
    rcases hs with rfl | rfl | rfl | rfl <;> simp [run_acceptSign hfront, closeBrace]
  rw [operatorsRest, run_bind_of_run hbinary, choiceRest, run_bind_of_run hchoice]
  rfl

end

/-! ## Operands -/

/-- The tokens that begin a value other than a negative number. A word is followed by what closes
the value. -/
inductive Opens : Token → Text → Prop
  | number (digits : String) (rest : Text) : Opens (.number digits) rest
  | string (body : String) (rest : Text) : Opens (.string body) rest
  | bracket (rest : Text) : Opens (.sign "[") rest
  | brace (rest : Text) : Opens (.sign openBrace) rest
  | word {w : String} (hw : w = "null" ∨ w = "true" ∨ w = "false") {rest : Text}
    (hrest : Closing rest) : Opens (.word w) rest

/-- A round of the loop over the operators before an operand. -/
def prefixStep (operators : List (String × List String)) :
    Rule (Bool × List (String × List String)) := do
  match ← prefixOperator? with
  | some operator => return (true, (operator, ← commentsAhead) :: operators)
  | none => return (false, operators)

theorem prefixed_eq : g.prefixed place = (do
    let operators ← iterate prefixStep []
    return (operators, ← g.operandRule place)) :=
  rfl

section

variable {after : Text} (hfront : Front text token after) (hopens : Opens token after)

include hfront hopens in
/-- No operator comes before an operand. -/
theorem run_prefixOperator? : prefixOperator?.run text = some (none, text) := by
  obtain ⟨start, hnext⟩ := run_next hfront
  refine run_attempt_of_failure ?_
  cases hopens with
  | number | string => simp [hnext]
  | bracket | brace => simp [hnext, unarySigns, openBrace]
  | word hw hrest =>
    obtain ⟨s, tail, hs, hafter⟩ := hrest.front
    rcases hw with rfl | rfl | rfl <;> simp [hnext, unaryWords, run_atSign hafter]

include hfront hopens in
theorem run_prefixStep (operators : List (String × List String)) :
    (prefixStep operators).run text = some ((false, operators), text) := by
  rw [prefixStep, run_bind_of_run (run_prefixOperator? hfront hopens)]
  rfl

include hfront hopens in
/-- No arrow function begins like an operand: the words for values are no names. -/
theorem run_arrowFunction :
    (attempt (do check (place.arrows && beginsArrow token); g.arrowFunction place)).run text =
      some (none, text) := by
  refine run_attempt_of_failure ?_
  cases hopens with
  | number | string | bracket | brace => simp [beginsArrow, openBrace]
  | word hw hrest =>
    -- An arrow function begins with a name or with parameters.
    have hname := run_name hfront rfl
    rcases hw with rfl | rfl | rfl <;>
      simp [arrowFunction, signature, optionalTypeParameters, parameters, run_word hfront,
        run_sign hfront, run_atSign hfront, hname, reservedWords]

variable {operand : Expr} {operators : List (String × List String)} (hrest : Closing rest)

include hrest in
theorem run_operandRule (hprimary : g.primary.run text = some (operand, rest)) :
    (g.operandRule place).run text = some (operand, rest) := by
  rw [operandRule, run_bind_of_run hprimary]
  exact run_iterate_of_last (run_postfixStep g place hrest operand)

include hfront hopens hrest in
theorem run_prefixed (hprimary : g.primary.run text = some (operand, rest)) :
    (g.prefixed place).run text = some (([], operand), rest) := by
  rw [prefixed_eq, run_bind_of_run (run_iterate_of_last (run_prefixStep hfront hopens [])),
    run_bind_of_run (run_operandRule g place hrest hprimary)]
  rfl

include hrest in
/-- What has been read with the operators before it is an expression, unless it goes on behind. -/
theorem run_assignmentRule_of_prefixed (hfront : Front text token after)
    (harrow : (attempt (do check (place.arrows && beginsArrow token); g.arrowFunction place)).run
      text = some (none, text))
    (hyield : token ≠ .word "yield")
    (hprefixed : (g.prefixed place).run text = some ((operators, operand), rest)) :
    (g.assignmentRule place).run text = some (applyOperators operators operand, rest) := by
  obtain ⟨start, hpeek⟩ := run_peek hfront
  rw [assignmentRule, run_bind_of_run hpeek]
  dsimp only
  rw [run_bind_of_run harrow]
  dsimp only [Option.isSome_none]
  rw [if_neg Bool.false_ne_true, if_neg hyield, run_bind_of_run hprefixed]
  dsimp only
  -- Arrays and objects could be patterns to which something is assigned, but nothing is.
  split
  · rw [run_bind_of_run (run_attempt_of_failure (run_assignmentOperator hrest))]
    exact run_operatorsRest g place hrest _
  · exact run_operatorsRest g place hrest _

/-- A minus sign is an operator. -/
theorem run_prefixStep_minus {next : Token} {after : Text} (hfront : Front text (.sign "-") rest)
    (hbehind : Front rest next after) (operators : List (String × List String)) :
    (prefixStep operators).run text = some ((true, ("-", []) :: operators), rest) := by
  obtain ⟨start, hnext⟩ := run_next hfront
  obtain ⟨start', hpeek⟩ := run_peek hbehind
  have hoperator : prefixOperator?.run text = some (some "-", rest) := by
    refine run_attempt_of_run ?_
    simp [hnext, unarySigns]
  rw [prefixStep, run_bind_of_run hoperator]
  simp [commentsAhead, hpeek]

include hfront hopens hrest in
/-- **An operand on its own** is an expression. -/
theorem run_assignmentRule (hprimary : g.primary.run text = some (operand, rest)) :
    (g.assignmentRule place).run text = some (operand, rest) := by
  have hyield : token ≠ .word "yield" := by
    cases hopens with
    | word hw => rcases hw with rfl | rfl | rfl <;> simp
    | _ => simp
  exact run_assignmentRule_of_prefixed g place hrest hfront
    (run_arrowFunction g place hfront hopens) hyield
    (run_prefixed g place hfront hopens hrest hprimary)

end

/-! ## Scalars -/

theorem run_primary_number {digits : String} (hfront : Front text (.number digits) rest) :
    g.primary.run text = some (.number digits, rest) := by
  obtain ⟨start, hpeek⟩ := run_peek hfront
  obtain ⟨start, hnext⟩ := run_next hfront
  simp [primary, hpeek, hnext]

theorem run_primary_string {body : String} (hfront : Front text (.string body) rest) :
    g.primary.run text = some (.string body, rest) := by
  obtain ⟨start, hpeek⟩ := run_peek hfront
  obtain ⟨start, hnext⟩ := run_next hfront
  simp [primary, hpeek, hnext]

theorem run_primary_null (hfront : Front text (.word "null") rest) :
    g.primary.run text = some (.null, rest) := by
  obtain ⟨start, hpeek⟩ := run_peek hfront
  simp [primary, hpeek, wordOperand, run_word hfront]

theorem run_primary_bool (b : Bool) (hfront : Front text (.word (if b then "true" else "false")) rest) :
    g.primary.run text = some (.bool b, rest) := by
  obtain ⟨start, hpeek⟩ := run_peek hfront
  cases b <;> simp [primary, hpeek, wordOperand, run_word hfront]

/-- **A minus sign before digits** makes an expression with them. -/
theorem run_assignmentRule_minus {n : Nat}
    (hfront : Front text (.sign "-") (Nat.toDigits 10 n ++ rest)) (hrest : Closing rest) :
    (g.assignmentRule place).run text =
      some (.unary "-" (.number (String.ofList (Nat.toDigits 10 n))), rest) := by
  have hdigits := front_digits n hrest.separated
  have hopens := Opens.number (String.ofList (Nat.toDigits 10 n)) rest
  -- a minus sign begins no arrow function
  have harrow :
      (attempt (do check (place.arrows && beginsArrow (.sign "-")); g.arrowFunction place)).run
        text = some (none, text) := by
    refine run_attempt_of_failure ?_
    simp [beginsArrow]
  have hoperators : (iterate prefixStep []).run text = some ([("-", [])], Nat.toDigits 10 n ++ rest) := by
    obtain ⟨c, tail, rfl⟩ := hfront.exists_eq_cons (by simp)
    rw [run_iterate, run_repeatFrom_of_more (run_prefixStep_minus hfront hdigits []),
      run_repeatFrom_of_last (run_prefixStep hdigits hopens _)]
  have hprefixed : (g.prefixed place).run text =
      some (([("-", [])], .number (String.ofList (Nat.toDigits 10 n))), rest) := by
    rw [prefixed_eq, run_bind_of_run hoperators,
      run_bind_of_run (run_operandRule g place hrest (run_primary_number g hdigits))]
    rfl
  exact run_assignmentRule_of_prefixed g place hrest hfront harrow (by simp) hprefixed

end Mosaic.Tsx
