import Mosaic.Proofs.Tsx.Lexemes
import Mosaic.Tsx.Grammar.Basic

/-!
# Runs of grammar rules

What a rule does is settled by the lexeme in front: it is looked at, consumed or refused. A rule
made of others does what these do one after the other, or tries one where another one fails.

* `run_peek`, `run_next`, `run_acceptSign`, `run_acceptWord`: single lexemes.
* `run_orElse_of_run`, `run_attempt_of_run` and their failing counterparts: choices.
* `run_iterate`, `run_repeatFrom_of_last`, `run_repeatFrom_of_more`: loops.
-/

namespace Mosaic.Tsx.Rule

variable {α β σ : Type} {text rest : Text} {token : Token}

/-! ## Sequences and choices -/

section

variable {rule : Rule α} {a : α}

/-- A rule that succeeds is followed by the next one. -/
theorem run_bind_of_run (h : rule.run text = some (a, rest)) (f : α → Rule β) :
    (rule >>= f).run text = (f a).run rest := by
  rw [StateT.run_bind, h]
  rfl

/-- Of two rules the first one counts if it succeeds. -/
theorem run_orElse_of_run (h : rule.run text = some (a, rest)) (other : Rule α) :
    (rule <|> other).run text = some (a, rest) := by
  show (rule.run text).orElse (fun _ => other.run text) = _
  rw [h]
  rfl

/-- Of two rules the second one counts if the first one fails. -/
theorem run_orElse_of_failure (h : rule.run text = none) (other : Rule α) :
    (rule <|> other).run text = other.run text := by
  show (rule.run text).orElse (fun _ => other.run text) = _
  rw [h]
  rfl

/-- An attempt that fails leaves the text alone. -/
theorem run_attempt_of_failure (h : rule.run text = none) :
    (attempt rule).run text = some (none, text) := by
  have hmap : (some <$> rule).run text = none := by
    rw [StateT.run_map, h]
    rfl
  exact run_orElse_of_failure hmap _

/-- An attempt that succeeds is like the rule itself. -/
theorem run_attempt_of_run (h : rule.run text = some (a, rest)) :
    (attempt rule).run text = some (some a, rest) := by
  have hmap : (some <$> rule).run text = some (some a, rest) := by
    rw [StateT.run_map, h]
    rfl
  exact run_orElse_of_run hmap _

end

@[simp] theorem failure_eq_none : (failure : Option α) = none := rfl

/-- A check reads nothing. -/
@[simp] theorem run_check (condition : Bool) (text : Text) :
    (check condition).run text = if condition then some ((), text) else none := by
  rw [check]
  split <;> rfl

/-! ## Single lexemes -/

section

variable (h : Front text token rest)

include h

/-- To look at a lexeme leaves the text alone. -/
theorem run_peek :
    ∃ start, peek.run text = some ({ token, text := start, rest, trivia := {} }, text) := by
  obtain ⟨start, hstart⟩ := h
  refine ⟨start, ?_⟩
  simp [peek, hstart]

/-- To take a lexeme leaves the text behind it. -/
theorem run_next :
    ∃ start, next.run text = some ({ token, text := start, rest, trivia := {} }, rest) := by
  obtain ⟨start, hstart⟩ := run_peek h
  refine ⟨start, ?_⟩
  rw [next, run_bind_of_run hstart]
  rfl

/-- A sign is accepted if it comes next, and else nothing is read. -/
theorem run_acceptSign (s : String) : (acceptSign s).run text =
    some (if token = .sign s then (true, rest) else (false, text)) := by
  obtain ⟨start, hstart⟩ := run_peek h
  rw [acceptSign, run_bind_of_run hstart]
  dsimp only
  split <;> rfl

/-- A word is accepted if it comes next, and else nothing is read. -/
theorem run_acceptWord (w : String) : (acceptWord w).run text =
    some (if token = .word w then (true, rest) else (false, text)) := by
  obtain ⟨start, hstart⟩ := run_peek h
  rw [acceptWord, run_bind_of_run hstart]
  dsimp only
  split <;> rfl

/-- A sign that is asked for must come next. -/
theorem run_sign (s : String) : (sign s).run text =
    if token = .sign s then some ((), rest) else none := by
  have haccept := run_acceptSign h s
  split at haccept
  · next htoken => rw [sign, run_bind_of_run haccept, run_check, if_pos rfl, if_pos htoken]
  · next htoken => rw [sign, run_bind_of_run haccept, run_check, if_neg Bool.false_ne_true, if_neg htoken]

/-- A word that is asked for must come next. -/
theorem run_word (w : String) : (word w).run text =
    if token = .word w then some ((), rest) else none := by
  have haccept := run_acceptWord h w
  split at haccept
  · next htoken => rw [word, run_bind_of_run haccept, run_check, if_pos rfl, if_pos htoken]
  · next htoken => rw [word, run_bind_of_run haccept, run_check, if_neg Bool.false_ne_true, if_neg htoken]

theorem run_atSign (s : String) : (atSign s).run text = some (decide (token = .sign s), text) := by
  obtain ⟨start, hstart⟩ := run_peek h
  rw [atSign, run_bind_of_run hstart]
  rfl

/-- A word that is no keyword is a name. -/
theorem run_name {w : String} (hword : token = .word w) : name.run text =
    if reservedWords.contains w then none else some (w, rest) := by
  obtain ⟨start, hstart⟩ := run_next h
  have hany : anyWord.run text = some (w, rest) := by
    rw [anyWord, run_bind_of_run hstart, hword]
    rfl
  rw [name, run_bind_of_run hany]
  cases hreserved : reservedWords.contains w <;> simp

end

/-! ## Loops -/

variable {step : σ → Rule (Bool × σ)} {state state' : σ}

/-- The last round of a loop. -/
theorem run_repeatFrom_of_last (h : (step state).run text = some ((false, state'), rest))
    (bound : Text) : (repeatFrom step bound state).run text = some (state', rest) := by
  cases bound with
  | nil =>
    rw [repeatFrom, run_bind_of_run h]
    rfl
  | cons c bound =>
    rw [repeatFrom, run_bind_of_run h]
    rfl

/-- A round of a loop that goes on. -/
theorem run_repeatFrom_of_more (h : (step state).run text = some ((true, state'), rest))
    (c : Char) (bound : Text) :
    (repeatFrom step (c :: bound) state).run text = (repeatFrom step bound state').run rest := by
  rw [repeatFrom, run_bind_of_run h]
  rfl

/-- A loop goes round no more often than the text has characters. -/
theorem run_iterate (step : σ → Rule (Bool × σ)) (state : σ) (text : Text) :
    (iterate step state).run text = (repeatFrom step text state).run text := by
  rw [iterate, run_bind_of_run (StateT.run_get text)]

/-- A loop whose first round is the last. -/
theorem run_iterate_of_last (h : (step state).run text = some ((false, state'), rest)) :
    (iterate step state).run text = some (state', rest) := by
  rw [run_iterate, run_repeatFrom_of_last h]

end Mosaic.Tsx.Rule
