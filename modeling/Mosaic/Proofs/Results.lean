import Mathlib.Data.List.Basic

/-!
# Computations that may fail

A computation comes to a result if each of its steps does.

* `map_eq_ok_iff`, `bind_eq_ok_iff`: two steps.
* `foldlM_concat_eq_ok_iff`: the last step of many.
-/

namespace Mosaic

variable {ε α β σ : Type}

theorem map_eq_ok_iff {result : Except ε α} {f : α → β} {b : β} :
    result.map f = .ok b ↔ ∃ a, result = .ok a ∧ f a = b := by
  cases result <;> simp [Except.map]

theorem bind_eq_ok_iff {result : Except ε α} {next : α → Except ε β} {b : β} :
    result >>= next = .ok b ↔ ∃ a, result = .ok a ∧ next a = .ok b := by
  cases result <;> simp [bind, Except.bind]

theorem foldlM_concat_eq_ok_iff {f : σ → α → Except ε σ} {xs : List α} {x : α} {start after : σ} :
    (xs ++ [x]).foldlM f start = .ok after ↔
      ∃ before, xs.foldlM f start = .ok before ∧ f before x = .ok after := by
  rw [List.foldlM_append, bind_eq_ok_iff]
  refine exists_congr fun before => and_congr_right fun _ => ?_
  rw [List.foldlM_cons, bind_eq_ok_iff]
  constructor
  · rintro ⟨last, hlast, h⟩
    obtain rfl : last = after := Except.ok.inj h
    exact hlast
  · intro hlast
    exact ⟨after, hlast, rfl⟩

end Mosaic
