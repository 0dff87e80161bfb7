/-!
# Values with a trace

A computation that records what happened while it ran: the value it reached and
the recorded steps, oldest first. Rendering records what became of each node,
discovery records its log.
-/

namespace Mosaic

/-- A value together with the steps recorded on the way to it. -/
structure Traced (ε : Type u) (α : Type v) where
  value : α
  trace : List ε

namespace Traced

variable {ε : Type u} {α β : Type v}

instance : Monad (Traced ε) where
  pure a := ⟨a, []⟩
  bind x f := ⟨(f x.value).value, x.trace ++ (f x.value).trace⟩

/-- Records one step. -/
def record (step : ε) : Traced ε Unit := ⟨(), [step]⟩

@[simp] theorem value_pure (a : α) : (pure a : Traced ε α).value = a := rfl
@[simp] theorem trace_pure (a : α) : (pure a : Traced ε α).trace = [] := rfl

@[simp] theorem value_bind (x : Traced ε α) (f : α → Traced ε β) :
    (x >>= f).value = (f x.value).value := rfl

@[simp] theorem trace_bind (x : Traced ε α) (f : α → Traced ε β) :
    (x >>= f).trace = x.trace ++ (f x.value).trace := rfl

@[simp] theorem value_map (f : α → β) (x : Traced ε α) : (f <$> x).value = f x.value := rfl

@[simp] theorem trace_map (f : α → β) (x : Traced ε α) : (f <$> x).trace = x.trace :=
  List.append_nil _

@[simp] theorem value_record (step : ε) : (record step).value = () := rfl
@[simp] theorem trace_record (step : ε) : (record step).trace = [step] := rfl

instance : LawfulMonad (Traced ε) :=
  LawfulMonad.mk' _
    (fun x => congrArg (Traced.mk x.value) (List.append_nil x.trace))
    (fun _ _ => rfl)
    (fun _ _ _ => congrArg (Traced.mk _) (List.append_assoc _ _ _))

end Traced

end Mosaic
