import Mathlib.Data.List.GetD
import Mosaic.Proofs.Merged
import Mosaic.Proofs.Render.Lookup

/-!
# Unit maps that are made from one another

Maps are made empty, as copies of others and by overriding one with another, and units are entered
into them at any time. No map keeps a tie to those that it was made from. So what a map has for a
type can be read off what was done, backwards from the end: the last unit that was entered there
for the type, and before that whatever the maps had that it was made from when it was made.

* `Action`, `act`, `run`: what is done with a growing collection of maps.
* `found`: the unit for a type, read off the actions.
* `followed_run`: it is the one that the map has.
* `getElem?_run`: a map into which nothing is entered stays as it is.
* `Renderer.foldl_withOverrides`, `Renderer.rendersLike_foldl_withOverrides`: overriding again and
  again is overriding once, and the last override of a type counts.
* `unitMaps_run`: all of it together, and what it means for a renderer that is given overrides.
-/

namespace Mosaic.Render

open Mosaic.Composition Mosaic.Registry

variable {α : Type}

namespace UnitMap

/-! ## Merging -/

/-- A unit that is entered is found under its type, and the others are found as before. -/
theorem get?_insert (m : UnitMap α) (kind : String) (unit : RenderUnit α) (other : String) :
    (m.insert kind unit).get? other = if other = kind then some unit else m.get? other := by
  by_cases hother : other = kind
  · rw [hother, if_pos rfl]
    exact lookup_putEntry_self unit m.units.entries
  · rw [if_neg hother]
    exact lookup_putEntry_of_ne hother unit m.units.entries

/-- The overriding map is asked first. -/
theorem get?_merge (a b : UnitMap α) (kind : String) :
    (a.merge b).get? kind = (b.get? kind).or (a.get? kind) := Dict.get?_merge a.units b.units kind

/-- **Merging is associative**: it is only the order of the maps that matters. -/
theorem merge_assoc (a b c : UnitMap α) : (a.merge b).merge c = a.merge (b.merge c) :=
  congrArg UnitMap.mk (Dict.merge_assoc a.units b.units c.units)

@[simp] theorem merge_empty (m : UnitMap α) : m.merge ∅ = m := rfl

@[simp] theorem empty_merge (m : UnitMap α) : (∅ : UnitMap α).merge m = m :=
  congrArg UnitMap.mk (Dict.empty_merge m.units)

/-- In a stack of overrides the last one that has the type counts. -/
theorem get?_foldr_merge (overrides : List (UnitMap α)) (kind : String) :
    (overrides.foldr merge ∅).get? kind = overrides.reverse.findSome? (·.get? kind) := by
  induction overrides with
  | nil => rfl
  | cons m rest ih =>
    rw [List.foldr_cons, get?_merge, ih, List.reverse_cons, List.findSome?_append,
      List.findSome?_singleton]

/-! ## A growing collection -/

/-- What can be done with a collection of maps. Maps are numbered in the order in which they were
made. -/
inductive Action (α : Type)
  | new
  | copy (map : Nat)
  | insert (map : Nat) (kind : String) (unit : RenderUnit α)
  | merge (map overrides : Nat)

/-- The map into which something is entered. -/
def Action.entered : Action α → Option Nat
  | .insert map _ _ => some map
  | _ => none

/-- Maps that do not exist are empty. -/
def mapAt (maps : List (UnitMap α)) (map : Nat) : UnitMap α := maps.getD map ∅

/-- The maps after an action, which adds a map or enters a unit in one. -/
def act (maps : List (UnitMap α)) : Action α → List (UnitMap α)
  | .new => maps ++ [∅]
  | .copy map => maps ++ [mapAt maps map]
  | .insert map kind unit => maps.modify map (·.insert kind unit)
  | .merge map overrides => maps ++ [(mapAt maps map).merge (mapAt maps overrides)]

/-- The maps after some actions. -/
def run (maps : List (UnitMap α)) (actions : List (Action α)) : List (UnitMap α) :=
  actions.foldl act maps

/-- Actions are carried out one after the other. -/
theorem run_append (maps : List (UnitMap α)) (actions later : List (Action α)) :
    run maps (actions ++ later) = run (run maps actions) later := List.foldl_append

/-! ## What has been done

From here on the actions come with the last one first. -/

/-- How many maps have been made. -/
def made : List (Action α) → Nat
  | [] => 0
  | .insert .. :: past => made past
  | _ :: past => made past + 1

/-- The unit for a type in a map. A map that is made goes back to what it is made from. -/
def found : List (Action α) → Nat → String → Option (RenderUnit α)
  | [], _, _ => none
  | .new :: past, map, kind => if map = made past then none else found past map kind
  | .copy original :: past, map, kind =>
    if map = made past then found past original kind else found past map kind
  | .insert target entry unit :: past, map, kind =>
    if map = target ∧ map < made past ∧ kind = entry then some unit else found past map kind
  | .merge original overrides :: past, map, kind =>
    if map = made past then (found past overrides kind).or (found past original kind)
    else found past map kind

/-- A collection of maps that has come about by some actions. -/
structure Followed (maps : List (UnitMap α)) (past : List (Action α)) : Prop where
  length_eq : maps.length = made past
  get?_eq : ∀ map kind, (mapAt maps map).get? kind = found past map kind

/-- A map that is made comes last. -/
theorem get?_mapAt_concat (maps : List (UnitMap α)) (m : UnitMap α) (map : Nat) (kind : String) :
    (mapAt (maps ++ [m]) map).get? kind =
      if map = maps.length then m.get? kind else (mapAt maps map).get? kind := by
  rw [mapAt, mapAt]
  rcases lt_trichotomy map maps.length with hlt | rfl | hgt
  · rw [if_neg hlt.ne, List.getD_append _ _ _ _ hlt]
  · rw [if_pos rfl, List.getD_append_right _ _ _ _ le_rfl, Nat.sub_self, List.getD_cons_zero]
  · -- neither collection has the map
    rw [if_neg hgt.ne', List.getD_eq_default _ _ hgt.le, List.getD_eq_default]
    rw [List.length_append, List.length_singleton]
    exact hgt

/-- A unit is found in the map in which it was entered, under its type, and nowhere else. -/
theorem get?_mapAt_modify (maps : List (UnitMap α)) (target : Nat) (entry : String)
    (unit : RenderUnit α) (map : Nat) (kind : String) :
    (mapAt (maps.modify target (·.insert entry unit)) map).get? kind =
      if map = target ∧ map < maps.length ∧ kind = entry then some unit
      else (mapAt maps map).get? kind := by
  rw [mapAt, mapAt, List.getD_eq_getElem?_getD, List.getD_eq_getElem?_getD, List.getElem?_modify]
  by_cases hlt : map < maps.length
  · rw [List.getElem?_eq_getElem hlt]
    by_cases htarget : target = map
    · simp [htarget, hlt, get?_insert]
    · simp [htarget, Ne.symm htarget]
  · rw [List.getElem?_eq_none (Nat.not_lt.mp hlt)]
    simp [hlt]

/-- **One more action** is followed. -/
theorem Followed.step {maps : List (UnitMap α)} {past : List (Action α)} (h : Followed maps past)
    (action : Action α) : Followed (act maps action) (action :: past) := by
  cases action with
  | new =>
    refine ⟨by simp [act, made, h.length_eq], fun map kind => ?_⟩
    rw [act, get?_mapAt_concat, h.length_eq, found, h.get?_eq]
    rfl
  | copy original =>
    refine ⟨by simp [act, made, h.length_eq], fun map kind => ?_⟩
    rw [act, get?_mapAt_concat, h.length_eq, found, h.get?_eq, h.get?_eq]
  | insert target entry unit =>
    refine ⟨by simp [act, made, h.length_eq], fun map kind => ?_⟩
    rw [act, get?_mapAt_modify, h.length_eq, found, h.get?_eq]
  | merge original overrides =>
    refine ⟨by simp [act, made, h.length_eq], fun map kind => ?_⟩
    rw [act, get?_mapAt_concat, h.length_eq, found, get?_merge, h.get?_eq, h.get?_eq,
      h.get?_eq]

/-- **What a map has for a type** is what is found in the actions. -/
theorem followed_run (actions : List (Action α)) : Followed (run [] actions) actions.reverse := by
  -- from the front, so that one more action is the last one
  induction actions using List.reverseRecOn with
  | nil => exact ⟨rfl, fun _ _ => rfl⟩
  | append_singleton actions action ih =>
    rw [run_append, List.reverse_concat]
    exact ih.step action

/-! ## What stays -/

variable {maps : List (UnitMap α)} {map : Nat} {m : UnitMap α}

/-- A map stays what it is as long as no unit is entered in it. -/
theorem getElem?_act {action : Action α} (hm : maps[map]? = some m)
    (hentered : action.entered ≠ some map) : (act maps action)[map]? = some m := by
  have hlt : map < maps.length := (List.getElem?_eq_some_iff.mp hm).1
  cases action with
  | insert target entry unit =>
    have hne : target ≠ map := fun heq => hentered (congrArg some heq)
    rw [act, List.getElem?_modify_ne _ _ hne, hm]
  | new | copy | merge => rw [act, List.getElem?_append_left hlt, hm]

/-- **A map into which nothing is entered stays as it is**, whatever is made from it and whatever
is entered into what it was made from. -/
theorem getElem?_run {actions : List (Action α)} (hm : maps[map]? = some m)
    (hentered : some map ∉ actions.map Action.entered) : (run maps actions)[map]? = some m := by
  induction actions generalizing maps with
  | nil => exact hm
  | cons action rest ih =>
    rw [List.map_cons, List.mem_cons, not_or] at hentered
    exact ih (getElem?_act hm (Ne.symm hentered.1)) hentered.2

end UnitMap

/-! ## Renderers -/

namespace Renderer

open UnitMap

/-- Two renderers that render everything the same, with the same steps on the way. -/
def RendersLike (r s : Renderer α) : Prop :=
  (∀ v, r.renderValue v = s.renderValue v) ∧ ∀ input, r.render input = s.render input

/-- Renderers that agree render alike. -/
theorem Agrees.rendersLike {r s : Renderer α} (h : r.Agrees s) : r.RendersLike s :=
  ⟨h.renderValue_eq, h.render_eq⟩

/-- **Overrides one after the other** are like those of the merged map. -/
theorem withOverrides_withOverrides (r : Renderer α) (a b : UnitMap α) :
    (r.withOverrides a).withOverrides b = r.withOverrides (a.merge b) := by
  show { r with units := (r.units.merge a).merge b } = { r with units := r.units.merge (a.merge b) }
  rw [merge_assoc]

/-- **Overriding again and again** is overriding once, with all the overrides merged. -/
theorem foldl_withOverrides (r : Renderer α) (overrides : List (UnitMap α)) :
    overrides.foldl withOverrides r = r.withOverrides (overrides.foldr merge ∅) := by
  induction overrides generalizing r with
  | nil => rfl
  | cons m rest ih => rw [List.foldl_cons, ih, withOverrides_withOverrides, List.foldr_cons]

/-- **The last override of a type counts**: a renderer that has been given overrides renders like
any other that has for each type the unit that was given last. -/
theorem rendersLike_foldl_withOverrides {r s : Renderer α} (overrides : List (UnitMap α))
    (hsink : s.sink = r.sink) (hschemas : s.schemas = r.schemas)
    (hunits : ∀ kind, s.units.get? kind =
      (overrides.reverse.findSome? (·.get? kind)).or (r.units.get? kind)) :
    (overrides.foldl withOverrides r).RendersLike s := by
  rw [foldl_withOverrides]
  have hagrees : (r.withOverrides (overrides.foldr merge ∅)).Agrees s := by
    refine ⟨hsink.symm, fun kind => ?_, fun kind => by rw [hschemas]; rfl⟩
    rw [hunits, ← get?_foldr_merge]
    exact get?_merge r.units _ kind
  exact hagrees.rendersLike

end Renderer

open UnitMap in
/-- **Maps that are made from one another.** What a map has after any actions is what is found in
them, and it stays whatever is done later, unless something is entered into this very map. The
types of a map are listed in order, each once. Merging asks the overrides first; it is associative,
and the empty map changes nothing. So a renderer that is given overrides twice renders like one that
has had everything merged from the start, and like any other that has for each type the unit that
was given last. -/
theorem unitMaps_run (history : List (Action α)) :
    (∀ map kind, (mapAt (run [] history) map).get? kind = found history.reverse map kind) ∧
    (∀ later map m, (run [] history)[map]? = some m → some map ∉ later.map Action.entered →
      (run (run [] history) later)[map]? = some m) ∧
    (∀ m : UnitMap α, m.types.SortedLT ∧ (∀ kind, kind ∈ m.types ↔ m.contains kind = true) ∧
      m.types.length = m.size) ∧
    (∀ a b c : UnitMap α,
      (∀ kind, (a.merge b).get? kind = (b.get? kind).or (a.get? kind)) ∧
      (∅ : UnitMap α).merge a = a ∧ a.merge ∅ = a ∧
      (a.merge b).merge c = a.merge (b.merge c)) ∧
    ∀ (d a b : UnitMap α) (sink : EventSink) (schemas : Option SchemaStore),
      let r : Renderer α := { units := d, sink, schemas }
      ((r.withOverrides a).withOverrides b).RendersLike
        { units := d.merge (a.merge b), sink, schemas } ∧
      ∀ s : Renderer α, s.sink = sink → s.schemas = schemas →
        (∀ kind, s.units.get? kind = (b.get? kind).or ((a.get? kind).or (d.get? kind))) →
        ((r.withOverrides a).withOverrides b).RendersLike s := by
  refine ⟨(followed_run history).get?_eq, fun later map m => getElem?_run, ?_, ?_, ?_⟩
  · intro m
    exact ⟨m.units.sortedLT_sortedKeys, m.units.mem_sortedKeys, m.units.length_sortedKeys⟩
  · intro a b c
    exact ⟨get?_merge a b, empty_merge a, merge_empty a, merge_assoc a b c⟩
  · intro d a b sink schemas r
    -- a merged map has for each type the unit that was given last
    have hlast : ∀ s : Renderer α, s.sink = sink → s.schemas = schemas →
        (∀ kind, s.units.get? kind = (b.get? kind).or ((a.get? kind).or (d.get? kind))) →
        ((r.withOverrides a).withOverrides b).RendersLike s := by
      intro s hsink hschemas hunits
      refine Renderer.rendersLike_foldl_withOverrides [a, b] hsink hschemas fun kind => ?_
      rw [hunits, ← Option.or_assoc, ← get?_merge]
      exact congrArg (·.or (d.get? kind)) (get?_foldr_merge [a, b] kind)
    refine ⟨hlast _ rfl rfl fun kind => ?_, hlast⟩
    rw [get?_merge, get?_merge, Option.or_assoc]

/-! ### Cards with a second look -/

/-- Shows the same whatever it is given. -/
def lookUnit (look : String) : RenderUnit String := fun _ _ => { output := look }

/-- A map with one unit for cards. -/
def plainCards : UnitMap String := UnitMap.insert ∅ "card" (lookUnit "plain")
/-- A map with another unit for cards. -/
def fancyCards : UnitMap String := UnitMap.insert ∅ "card" (lookUnit "fancy")
/-- A map with a unit for notes, which comes later. -/
def lateNotes : UnitMap String := UnitMap.insert ∅ "note" (lookUnit "late")

/-- Has late notes and fancy cards, in this order, and has never been overridden. -/
def fancyRenderer : Renderer String where
  units := UnitMap.insert lateNotes "card" (lookUnit "fancy")

/-- A map, a copy of it, overrides for the copy, and both merged. -/
def lookActions : List (UnitMap.Action String) :=
  [.new, .insert 0 "card" (lookUnit "plain"), .copy 0, .new, .insert 2 "card" (lookUnit "fancy"),
    .merge 1 2]

/-- Afterwards the original and the overrides change. -/
def laterActions : List (UnitMap.Action String) :=
  [.insert 0 "card" (lookUnit "late"), .insert 2 "note" (lookUnit "late"), .copy 2]

def cardInput : Json := .object [("type", .string "card")]

open UnitMap in
/-- The merged map stays as it is, and two overrides leave the look of cards that came last. -/
theorem unitMaps_run_looks :
    some 3 ∉ laterActions.map Action.entered ∧
    (run (run [] lookActions) laterActions)[3]? = some (mapAt (run [] lookActions) 3) ∧
    ((mapAt (run [] lookActions) 3).get? "card").map
      (fun unit => (unit [] .disconnected).output) = some "fancy" ∧
    (∀ kind, fancyRenderer.units.get? kind =
      (lateNotes.get? kind).or ((fancyCards.get? kind).or (plainCards.get? kind))) ∧
    let r : Renderer String := { units := plainCards }
    ((r.withOverrides fancyCards).withOverrides lateNotes).RendersLike fancyRenderer ∧
    (((r.withOverrides fancyCards).withOverrides lateNotes).renderValue cardInput).value =
      .unit "card" "fancy" := by
  obtain ⟨hfound, hstays, -, -, hrenders⟩ := unitMaps_run lookActions
  have hentered : some 3 ∉ laterActions.map Action.entered := by decide
  have hunits : ∀ kind, fancyRenderer.units.get? kind =
      (lateNotes.get? kind).or ((fancyCards.get? kind).or (plainCards.get? kind)) := by
    intro kind
    rw [fancyRenderer, lateNotes, fancyCards, plainCards, get?_insert, get?_insert, get?_insert,
      get?_insert]
    -- only one type is in more than one of the maps
    by_cases hcard : kind = "card"
    · subst hcard
      rfl
    · rw [if_neg hcard, if_neg hcard, if_neg hcard]
      exact (Option.or_none ..).symm
  have hlike := (hrenders plainCards fancyCards lateNotes .disconnected none).2 fancyRenderer rfl
    rfl hunits
  refine ⟨hentered, hstays laterActions 3 _ rfl hentered, ?_, hunits, hlike, ?_⟩
  · rw [hfound]
    rfl
  · rw [hlike.1]
    rfl

end Mosaic.Render
