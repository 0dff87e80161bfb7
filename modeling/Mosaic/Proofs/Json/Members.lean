import Mosaic.Json.Form
import Mosaic.Proofs.Dict
import Mosaic.Proofs.Results

/-!
# Reading from values

What a form reads from a value. Objects are read member by member; where no name is repeated, a
member more shows under its own name only.

* `ofValue_string_eq_ok_iff`, `ofValue_dict_eq_ok_iff`: the values that are read as a text, and as
  a dictionary.
* `Form.Takes`: what is read of the member with a given name, if there is one.
* `takes_concat_of_ne`, `takes_concat_self`: one member more.
* `takes_concat_filled_iff`: what a record makes of it.
-/

namespace Mosaic.Json.Form

/-! ## Texts and dictionaries -/

theorem ofValue_string_eq_ok_iff {value : Json} {text : String} :
    string.ofValue value = .ok text ↔ value = .string text := by
  cases value with
  | string s =>
    show (Except.ok s : Except Mismatch String) = .ok text ↔ _
    rw [Except.ok.injEq, Json.string.injEq]
  | _ => constructor <;> intro h <;> cases h

/-- The entries of an object are put into a dictionary, one after the other. -/
theorem ofValue_dict_object (entries : List (String × Json)) :
    (dict value).ofValue (.object entries) = .ok (.ofList entries) := by
  have hfold : ∀ seen : Dict Json,
      entries.foldlM (fun d (entry : String × Json) =>
        (value.ofValue entry.2).map (d.insert entry.1)) seen =
        .ok (entries.foldl (fun d p => d.insert p.1 p.2) seen) := by
    induction entries with
    | nil => exact fun _ => rfl
    | cons entry rest ih => exact fun seen => ih (seen.insert entry.1 entry.2)
  exact hfold ∅

/-- A dictionary is read from the object with its entries, and from nothing else that has distinct
names. -/
theorem ofValue_dict_eq_ok_iff {value : Json} {d : Dict Json}
    (hdistinct : ∀ entries, value = .object entries → (entries.map Prod.fst).Nodup) :
    (dict Form.value).ofValue value = .ok d ↔ value = .object d.entries := by
  cases value with
  | object entries =>
    have hentries : (Dict.ofList entries).entries = entries :=
      Dict.entries_ofList (hdistinct entries rfl)
    rw [ofValue_dict_object, Except.ok.injEq, Json.object.injEq]
    constructor
    · rintro rfl
      exact hentries.symm
    · intro heq
      exact Dict.ext (hentries.trans heq)
  | _ => constructor <;> intro h <;> cases h

/-! ## Members -/

/-- A value is what the form reads of a member; there is none without the member. -/
def Takes {β : Type} (form : Form β) (members : List (String × Json)) (name : String)
    (held : Option β) : Prop :=
  Option.Rel (fun value b => form.ofValue value = .ok b) (members.lookup name) held

section

variable {β : Type} {form : Form β} {members : List (String × Json)} {name : String}
  {held : Option β}

theorem takes_none_iff : form.Takes members name none ↔ members.lookup name = none := by
  unfold Takes
  cases members.lookup name <;> simp

theorem takes_some_iff {b : β} :
    form.Takes members name (some b) ↔
      ∃ value, members.lookup name = some value ∧ form.ofValue value = .ok b := by
  unfold Takes
  cases members.lookup name <;> simp

/-- A member more is no matter to other names. -/
theorem takes_concat_of_ne {other : String} (hne : name ≠ other) (value : Json) :
    form.Takes (members ++ [(other, value)]) name held ↔ form.Takes members name held := by
  unfold Takes
  rw [lookup_append_cons, if_neg hne, List.lookup_nil, Option.or_none]

/-- The first member of a name is the one that is read. -/
theorem takes_concat_self (hnew : name ∉ members.map Prod.fst) (value : Json) :
    form.Takes (members ++ [(name, value)]) name held ↔
      ∃ b, form.ofValue value = .ok b ∧ held = some b := by
  have hlookup : (members ++ [(name, value)]).lookup name = some value := by
    rw [lookup_append_cons, lookup_eq_none_iff_not_mem_keys.mpr hnew, if_pos rfl, Option.none_or]
  unfold Takes
  rw [hlookup]
  cases held <;> simp

/-- **The first member of a name** fills in the field of that name, which was empty before, and
leaves alone what else is read. -/
theorem takes_concat_filled_iff {σ γ : Type} (make : Option β → γ → σ) (step : σ → Except Mismatch σ)
    {rest : γ → Prop} {other : γ} {value : Json} (hnew : name ∉ members.map Prod.fst)
    (hmake : ∀ b b' c c', make b c = make b' c' → b = b' ∧ c = c')
    (hstep : ∀ b c, step (make b c) = (form.ofValue value).map fun read => make (some read) c) :
    form.Takes (members ++ [(name, value)]) name held ∧ rest other ↔
      ∃ before others, (form.Takes members name before ∧ rest others) ∧
        step (make before others) = .ok (make held other) := by
  rw [takes_concat_self hnew]
  constructor
  · -- the key is new, so that nothing was held for it before
    rintro ⟨⟨b, hread, rfl⟩, hrest⟩
    have hnone : form.Takes members name none :=
      takes_none_iff.mpr (lookup_eq_none_iff_not_mem_keys.mpr hnew)
    refine ⟨none, other, ⟨hnone, hrest⟩, ?_⟩
    rw [hstep, hread]
    rfl
  · rintro ⟨before, others, ⟨-, hrest⟩, hmade⟩
    rw [hstep] at hmade
    obtain ⟨b, hread, heq⟩ := map_eq_ok_iff.mp hmade
    obtain ⟨hheld, rfl⟩ := hmake _ _ _ _ heq
    exact ⟨⟨b, hread, hheld.symm⟩, hrest⟩

end

end Mosaic.Json.Form
