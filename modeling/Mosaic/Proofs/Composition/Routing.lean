import Mathlib.Data.List.Basic
import Mathlib.Data.List.GetD
import Mathlib.Data.List.Induction
import Mosaic.Composition.Sink

/-!
# Which consumer hears an event

Handles are made by giving a sink a consumer, by leaving it without one, and by copying another
handle. So every handle goes back, from copy to copy, to a sink that was not made by copying, and
only this sink decides who hears what is sent through the handle. Here this is said of the steps
alone, without the handles that the board keeps, and without regard to how far the copies go.

* `makers`, `emissions`: the steps that made the handles, and the events that were sent.
* `Descends`: a handle goes back to another one by copying.
* `LeadsTo`, `LeadsNowhere`: it goes back to the own sink of a consumer, or to one without any.
* `UsesMade`: steps that use no handle before it is made.
* `Routed`: what the board has after some steps; `Routed.step` is one more step, `routed_after` all
  of them.
* `routes_after`: who hears what, and which handles lead to the same place.
-/

namespace Mosaic.Composition.Switchboard

/-! ## Steps -/

/-- The handle that a step uses. -/
def Step.used : Step → Option Nat
  | .copy sink => some sink
  | .emit sink _ => some sink
  | _ => none

/-- Whether a step makes a handle. -/
def Step.makes : Step → Bool
  | .emit .. => false
  | _ => true

/-- Whether a step is one that connects a new consumer. -/
def Step.isConnect : Step → Bool
  | .connect => true
  | _ => false

/-- The handle and the event of a step that sends one. -/
def Step.emission? : Step → Option (Nat × Event)
  | .emit sink event => some (sink, event)
  | _ => none

/-- The steps that made the handles, in the order of the handles. -/
def makers (steps : List Step) : List Step := steps.filter Step.makes

/-- The events that were sent, in their order, each with the handle that it was sent through. -/
def emissions (steps : List Step) : List (Nat × Event) := steps.filterMap Step.emission?

/-- With some handles made, the steps use no handle before it is made. -/
def UsesMade (made : Nat) : List Step → Prop
  | [] => True
  | step :: rest => (∀ sink ∈ step.used, sink < made) ∧ UsesMade (made + step.makes.toNat) rest

instance decidableUsesMade : ∀ made steps, Decidable (UsesMade made steps)
  | _, [] => isTrue trivial
  | made, step :: rest =>
    have := decidableUsesMade (made + step.makes.toNat) rest
    inferInstanceAs (Decidable (_ ∧ _))

/-- The board on which some steps were made. -/
def after (board : Switchboard) (steps : List Step) : Switchboard := steps.foldl run board

/-- Steps are carried out one after the other. -/
theorem after_append (board : Switchboard) (steps later : List Step) :
    board.after (steps ++ later) = (board.after steps).after later := List.foldl_append

theorem after_concat (board : Switchboard) (steps : List Step) (step : Step) :
    board.after (steps ++ [step]) = (board.after steps).run step := after_append board steps [step]

/-- The makers are the steps that make a handle, in their order. -/
theorem makers_concat (steps : List Step) (step : Step) :
    makers (steps ++ [step]) = makers steps ++ if step.makes then [step] else [] := by
  rw [makers, List.filter_append, List.filter_singleton, ← makers]
  cases step.makes <;> rfl

/-- The emissions are those of the single steps, in their order. -/
theorem emissions_concat (steps : List Step) (step : Step) :
    emissions (steps ++ [step]) = emissions steps ++ step.emission?.toList := by
  rw [emissions, List.filterMap_append, ← emissions]
  cases step <;> rfl

/-- If all steps use handles that have been made, so does the last one. -/
theorem usesMade_concat {steps : List Step} {step : Step} {made : Nat}
    (h : UsesMade made (steps ++ [step])) :
    UsesMade made steps ∧ ∀ sink ∈ step.used, sink < made + (makers steps).length := by
  induction steps generalizing made with
  | nil => exact ⟨trivial, h.1⟩
  | cons first rest ih =>
    obtain ⟨hused, hrest⟩ := ih h.2
    refine ⟨⟨h.1, hused⟩, ?_⟩
    intro sink hsink
    have hlt := hrest sink hsink
    -- the first step is counted on either side of the sum
    have hlength : (makers (first :: rest)).length = first.makes.toNat + (makers rest).length := by
      unfold makers
      cases hmakes : first.makes <;> simp [hmakes, Nat.add_comm]
    omega

/-! ## Descent -/

section

variable (steps : List Step)

/-- `Descends steps root i`: the handle `i` is `root`, or was copied from a handle that goes back to
`root`. -/
inductive Descends (root : Nat) : Nat → Prop
  | self : Descends root root
  | copy {i original : Nat} :
    (makers steps)[i]? = some (.copy original) → Descends root original → Descends root i

/-- A handle that was not made by copying. -/
def IsCreated (i : Nat) : Prop := ∃ step, (makers steps)[i]? = some step ∧ step.used = none

/-- The number of the consumer for which a handle was made, if it was made for one: so many
consumers have a handle before it. -/
def consumerAt (i : Nat) : Nat := ((makers steps).take i).countP Step.isConnect

/-- The handle with which a consumer comes in. Consumers are numbered in the order in which they
do. -/
def IsOwnSink (consumer i : Nat) : Prop :=
  (makers steps)[i]? = some .connect ∧ consumerAt steps i = consumer

/-- A handle that was made without a consumer. -/
def IsUnconnected (i : Nat) : Prop :=
  (makers steps)[i]? = some .disconnected ∨ (makers steps)[i]? = some .byDefault

/-- The handle goes back to the own sink of a consumer. -/
def LeadsTo (consumer i : Nat) : Prop := ∃ own, IsOwnSink steps consumer own ∧ Descends steps own i

/-- The handle goes back to a sink without a consumer. -/
def LeadsNowhere (i : Nat) : Prop := ∃ root, IsUnconnected steps root ∧ Descends steps root i

end

variable {board : Switchboard} {steps : List Step}

/-- A handle that comes with a consumer has been made. -/
theorem IsOwnSink.isCreated {consumer i : Nat} (h : IsOwnSink steps consumer i) :
    IsCreated steps i := ⟨.connect, h.1, rfl⟩

/-- Behind a handle that was made for a consumer, one consumer more is counted. -/
theorem consumerAt_lt {i j : Nat} (hi : (makers steps)[i]? = some .connect) (hlt : i < j) :
    consumerAt steps i < consumerAt steps j := by
  unfold consumerAt
  have hsucc : ((makers steps).take (i + 1)).countP Step.isConnect =
      ((makers steps).take i).countP Step.isConnect + 1 := by
    rw [List.take_add_one, hi, List.countP_append]
    rfl
  have hle : ((makers steps).take (i + 1)).countP Step.isConnect ≤
      ((makers steps).take j).countP Step.isConnect :=
    ((makers steps).take_prefix_take_left hlt).sublist.countP_le
  omega

/-- A consumer has one own sink only. -/
theorem IsOwnSink.unique {consumer i j : Nat} (hi : IsOwnSink steps consumer i)
    (hj : IsOwnSink steps consumer j) : i = j := by
  rcases Nat.lt_trichotomy i j with hlt | heq | hgt
  · have hconsumer := consumerAt_lt hi.1 hlt
    rw [hi.2, hj.2] at hconsumer
    omega
  · exact heq
  · have hconsumer := consumerAt_lt hj.1 hgt
    rw [hi.2, hj.2] at hconsumer
    omega

/-- Each consumer that comes in has an own sink. -/
theorem exists_isOwnSink {consumer : Nat}
    (h : consumer < (makers steps).countP Step.isConnect) : ∃ own, IsOwnSink steps consumer own := by
  unfold IsOwnSink consumerAt
  -- the makers are taken apart from the end, where the latest consumer comes in
  generalize makers steps = handles at h ⊢
  induction handles using List.reverseRecOn with
  | nil => simp at h
  | append_singleton earlier step ih =>
    by_cases hearlier : consumer < earlier.countP Step.isConnect
    · obtain ⟨own, hmaker, hcount⟩ := ih hearlier
      have hlt : own < earlier.length := (List.getElem?_eq_some_iff.mp hmaker).1
      refine ⟨own, ?_, ?_⟩
      · rw [List.getElem?_append_left hlt, hmaker]
      · rw [List.take_append_of_le_length (Nat.le_of_lt hlt), hcount]
    · cases step with
      | connect =>
        rw [List.countP_append] at h
        have hlast : consumer < earlier.countP Step.isConnect + 1 := h
        refine ⟨earlier.length, List.getElem?_concat_length, ?_⟩
        rw [List.take_left]
        omega
      | _ =>
        rw [List.countP_append] at h
        exact absurd h hearlier

/-! ## The board -/

/-- What a board has after some steps: the handles lead where the steps that made them say, and each
event was delivered through its handle. -/
structure Routed (board : Switchboard) (steps : List Step) : Prop where
  length_eq : board.sinks.length = (makers steps).length
  consumers_eq : board.consumers = (makers steps).countP Step.isConnect
  connected {i : Nat} : (makers steps)[i]? = some .connect →
    board.sinks[i]? = some (.connected (consumerAt steps i))
  unconnected {i : Nat} : IsUnconnected steps i → board.sinks[i]? = some .disconnected
  /-- A copy leads where its original leads, which was there before. -/
  copied {i original : Nat} : (makers steps)[i]? = some (.copy original) →
    original < i ∧ board.sinks[i]? = board.sinks[original]?
  emitted_lt : ∀ sent ∈ emissions steps, sent.1 < (makers steps).length
  heard_eq : board.heard = (emissions steps).flatMap fun sent => (board.sink sent.1).deliver sent.2

/-- At the beginning there is neither a handle nor a consumer, and nothing has been heard. -/
theorem routed_nil : Routed {} [] where
  length_eq := rfl
  consumers_eq := rfl
  connected h := by simp [makers] at h
  unconnected h := by simp [IsUnconnected, makers] at h
  copied h := by simp [makers] at h
  emitted_lt := by simp [emissions]
  heard_eq := rfl

/-! ### One step -/

/-- The handle that a step makes on a board. -/
def Step.handle? (board : Switchboard) : Step → Option EventSink
  | .connect => some (.connected board.consumers)
  | .disconnected => some .disconnected
  | .byDefault => some default
  | .copy original => some (board.sink original)
  | .emit .. => none

/-- A step makes one handle at most, and changes none. -/
theorem sinks_run (board : Switchboard) (step : Step) :
    (board.run step).sinks = board.sinks ++ (step.handle? board).toList := by
  cases step with
  | emit sink event => exact (List.append_nil _).symm
  | _ => rfl

/-- A step adds a consumer if it connects one. -/
theorem consumers_run (board : Switchboard) (step : Step) :
    (board.run step).consumers = board.consumers + step.isConnect.toNat := by
  cases step <;> rfl

/-- What a step emits is delivered to the consumers that the handle of the step leads to. -/
theorem heard_run (board : Switchboard) (step : Step) :
    (board.run step).heard = board.heard ++
      step.emission?.toList.flatMap fun sent => (board.sink sent.1).deliver sent.2 := by
  cases step with
  | emit sink event => simp [run, Step.emission?]
  | _ => exact (List.append_nil _).symm

/-- A handle that is there stays what it is. -/
theorem getElem?_sinks_run (step : Step) {i : Nat} (hlt : i < board.sinks.length) :
    (board.run step).sinks[i]? = board.sinks[i]? := by
  rw [sinks_run, List.getElem?_append_left hlt]

/-- A handle is the same after a step as before. -/
theorem sink_run (step : Step) {i : Nat} (hlt : i < board.sinks.length) :
    (board.run step).sink i = board.sink i := by
  rw [sink, sink, List.getD_eq_getElem?_getD, List.getD_eq_getElem?_getD,
    getElem?_sinks_run step hlt]

/-- A new handle has the next free number. -/
theorem getElem?_sinks_run_length (board : Switchboard) (step : Step) :
    (board.run step).sinks[board.sinks.length]? = step.handle? board := by
  rw [sinks_run, List.getElem?_append_right (Nat.le_refl _), Nat.sub_self]
  cases step <;> rfl

/-- The handle with a number that has been given is the one at that place. -/
theorem getElem?_sinks {i : Nat} (hlt : i < board.sinks.length) :
    board.sinks[i]? = some (board.sink i) := by
  rw [sink, List.getD_eq_getElem _ _ hlt, List.getElem?_eq_getElem hlt]

/-- A step that made a handle is an earlier one, or the last one. -/
theorem maker_concat {step maker : Step} {i : Nat}
    (h : (makers (steps ++ [step]))[i]? = some maker) :
    (makers steps)[i]? = some maker ∨ i = (makers steps).length ∧ step = maker := by
  rw [makers_concat] at h
  rcases Nat.lt_or_ge i (makers steps).length with hlt | hge
  · rw [List.getElem?_append_left hlt] at h
    exact .inl h
  · rw [List.getElem?_append_right hge] at h
    obtain ⟨hindex, hmaker⟩ := List.getElem?_eq_some_iff.mp h
    cases hmakes : step.makes with
    | false => simp [hmakes] at hindex
    | true =>
      simp only [hmakes, if_true, List.length_singleton] at hindex
      simp only [hmakes, if_true, List.getElem_singleton] at hmaker
      exact .inr ⟨by omega, hmaker⟩

/-- A step that is carried out later does not change to which consumer a handle belongs. -/
theorem consumerAt_concat (step : Step) {i : Nat} (hle : i ≤ (makers steps).length) :
    consumerAt (steps ++ [step]) i = consumerAt steps i := by
  unfold consumerAt
  rw [makers_concat, List.take_append_of_le_length hle]

theorem lt_of_getElem?_makers {maker : Step} {i : Nat} (h : (makers steps)[i]? = some maker) :
    i < (makers steps).length := (List.getElem?_eq_some_iff.mp h).1

/-- **One more step** is routed, if it uses no handle that is not there. -/
theorem Routed.step {step : Step} (h : Routed board steps)
    (hused : ∀ sink ∈ step.used, sink < (makers steps).length) :
    Routed (board.run step) (steps ++ [step]) where
  length_eq := by
    rw [sinks_run, makers_concat, List.length_append, List.length_append, h.length_eq]
    cases step <;> rfl
  consumers_eq := by
    rw [consumers_run, makers_concat, List.countP_append, h.consumers_eq]
    cases step <;> rfl
  connected := by
    intro i hmaker
    -- a handle that was there before keeps its maker, and what it leads to
    rcases maker_concat hmaker with hold | ⟨rfl, rfl⟩
    · have hlt := lt_of_getElem?_makers hold
      rw [getElem?_sinks_run step (h.length_eq ▸ hlt), consumerAt_concat step (Nat.le_of_lt hlt)]
      exact h.connected hold
    · -- the new consumer has the number of consumers before it
      rw [← h.length_eq, getElem?_sinks_run_length, h.length_eq, consumerAt_concat _ (Nat.le_refl _)]
      unfold consumerAt
      rw [List.take_length, ← h.consumers_eq]
      rfl
  unconnected := by
    intro i hmaker
    have hcases : IsUnconnected steps i ∨
        i = (makers steps).length ∧ (step = .disconnected ∨ step = .byDefault) := by
      rcases hmaker with hmaker | hmaker
      · exact (maker_concat hmaker).imp .inl (And.imp_right .inl)
      · exact (maker_concat hmaker).imp .inr (And.imp_right .inr)
    rcases hcases with hold | ⟨rfl, hstep⟩
    · have hlt : i < (makers steps).length := hold.elim lt_of_getElem?_makers lt_of_getElem?_makers
      rw [getElem?_sinks_run step (h.length_eq ▸ hlt)]
      exact h.unconnected hold
    · -- a new handle that is connected to nothing leads to nothing, whichever way it was made
      rw [← h.length_eq, getElem?_sinks_run_length]
      rcases hstep with rfl | rfl <;> rfl
  copied := by
    intro i original hmaker
    rcases maker_concat hmaker with hold | ⟨rfl, rfl⟩
    · obtain ⟨hlt, hsame⟩ := h.copied hold
      have hi : i < board.sinks.length := h.length_eq ▸ lt_of_getElem?_makers hold
      rw [getElem?_sinks_run step hi, getElem?_sinks_run step (Nat.lt_trans hlt hi)]
      exact ⟨hlt, hsame⟩
    · -- a copy is made of a handle that is there, so it comes later and leads where that one does
      have hlt : original < (makers steps).length := hused original rfl
      have hthere : original < board.sinks.length := h.length_eq ▸ hlt
      refine ⟨hlt, ?_⟩
      rw [← h.length_eq, getElem?_sinks_run_length, getElem?_sinks_run _ hthere,
        getElem?_sinks hthere]
      rfl
  emitted_lt := by
    intro sent hsent
    rw [emissions_concat, List.mem_append] at hsent
    rw [makers_concat, List.length_append]
    rcases hsent with hold | hnew
    · have hlt := h.emitted_lt sent hold
      omega
    · -- only an emission sends anything, through a handle that was made before it
      cases step with
      | emit sink event =>
        rw [List.mem_singleton.mp hnew]
        exact Nat.lt_add_right _ (hused sink rfl)
      | _ => cases hnew
  heard_eq := by
    rw [heard_run, emissions_concat, List.flatMap_append, h.heard_eq]
    congr 1
    · -- what was sent before was sent through handles that stay
      refine List.flatMap_congr fun sent hsent => ?_
      rw [sink_run step (h.length_eq ▸ h.emitted_lt sent hsent)]
    · cases step with
      | emit sink event => rfl
      | _ => rfl

/-- **All steps** from the start are routed. -/
theorem routed_after (h : UsesMade 0 steps) : Routed (after {} steps) steps := by
  -- from the front, so that one more step is the last one
  induction steps using List.reverseRecOn with
  | nil => exact routed_nil
  | append_singleton past step ih =>
    obtain ⟨hpast, hused⟩ := usesMade_concat h
    rw [after_concat]
    rw [Nat.zero_add] at hused
    exact (ih hpast).step hused

/-! ## Where handles lead -/

/-- A handle leads where the one leads that it goes back to. -/
theorem Routed.sinks_eq_of_descends (h : Routed board steps) {root i : Nat}
    (hdescends : Descends steps root i) : board.sinks[i]? = board.sinks[root]? := by
  induction hdescends with
  | self => rfl
  | copy hmaker _ ih => exact (h.copied hmaker).2.trans ih

/-- Every handle goes back to one that was not made by copying. -/
theorem Routed.exists_created (h : Routed board steps) {i : Nat} (hi : i < (makers steps).length) :
    ∃ root, IsCreated steps root ∧ Descends steps root i := by
  induction i using Nat.strongRecOn with
  | ind i ih =>
    have hmaker : (makers steps)[i]? = some (makers steps)[i] := List.getElem?_eq_getElem hi
    cases hstep : (makers steps)[i] with
    | copy original =>
      rw [hstep] at hmaker
      have hlt := (h.copied hmaker).1
      obtain ⟨root, hroot, hdescends⟩ := ih original hlt (Nat.lt_trans hlt hi)
      exact ⟨root, hroot, .copy hmaker hdescends⟩
    | emit sink event =>
      -- this step makes no handle
      have hmakes := List.of_mem_filter (List.getElem_mem hi : _ ∈ makers steps)
      rw [hstep] at hmakes
      cases hmakes
    | _ =>
      rw [hstep] at hmaker
      exact ⟨i, ⟨_, hmaker, rfl⟩, .self⟩

/-- A handle that has been made came with its consumer, or was made unconnected. -/
theorem IsCreated.cases {i : Nat} (h : IsCreated steps i) :
    IsOwnSink steps (consumerAt steps i) i ∨ IsUnconnected steps i := by
  obtain ⟨step, hmaker, hused⟩ := h
  cases step with
  | connect => exact .inl ⟨hmaker, rfl⟩
  | disconnected => exact .inr (.inl hmaker)
  | byDefault => exact .inr (.inr hmaker)
  | copy original => cases hused
  | emit sink event => cases hused

/-- **A handle leads to a consumer** if one follows the copies back to it. -/
theorem Routed.sinks_of_leadsTo (h : Routed board steps) {consumer i : Nat}
    (hleads : LeadsTo steps consumer i) : board.sinks[i]? = some (.connected consumer) := by
  obtain ⟨own, hown, hdescends⟩ := hleads
  rw [h.sinks_eq_of_descends hdescends, h.connected hown.1, hown.2]

/-- **A handle leads nowhere** if one follows the copies back to one that was made unconnected. -/
theorem Routed.sinks_of_leadsNowhere (h : Routed board steps) {i : Nat}
    (hnowhere : LeadsNowhere steps i) : board.sinks[i]? = some .disconnected := by
  obtain ⟨root, hroot, hdescends⟩ := hnowhere
  rw [h.sinks_eq_of_descends hdescends, h.unconnected hroot]

/-- A handle leads to a consumer or nowhere. -/
theorem Routed.leads (h : Routed board steps) {i : Nat} (hi : i < (makers steps).length) :
    (∃ consumer, LeadsTo steps consumer i) ∨ LeadsNowhere steps i := by
  obtain ⟨root, hroot, hdescends⟩ := h.exists_created hi
  exact hroot.cases.imp (fun hown => ⟨_, root, hown, hdescends⟩) fun hnone => ⟨root, hnone, hdescends⟩

theorem sink_of_getElem? {i : Nat} {handle : EventSink} (h : board.sinks[i]? = some handle) :
    board.sink i = handle := by
  rw [sink, List.getD_eq_getElem?_getD, h, Option.getD_some]

/-- **A handle leads to a consumer** if and only if it goes back to the own sink of the consumer. -/
theorem Routed.sink_eq_connected_iff (h : Routed board steps) {i : Nat}
    (hi : i < (makers steps).length) (consumer : Nat) :
    board.sink i = .connected consumer ↔ LeadsTo steps consumer i := by
  constructor
  · intro hsink
    rcases h.leads hi with ⟨other, hleads⟩ | hnowhere
    · rw [sink_of_getElem? (h.sinks_of_leadsTo hleads), EventSink.connected.injEq] at hsink
      exact hsink ▸ hleads
    · rw [sink_of_getElem? (h.sinks_of_leadsNowhere hnowhere)] at hsink
      cases hsink
  · intro hleads
    exact sink_of_getElem? (h.sinks_of_leadsTo hleads)

/-- **A handle leads nowhere** if and only if it goes back to a sink without a consumer. -/
theorem Routed.sink_eq_disconnected_iff (h : Routed board steps) {i : Nat}
    (hi : i < (makers steps).length) :
    board.sink i = .disconnected ↔ LeadsNowhere steps i := by
  constructor
  · intro hsink
    rcases h.leads hi with ⟨consumer, hleads⟩ | hnowhere
    · rw [sink_of_getElem? (h.sinks_of_leadsTo hleads)] at hsink
      cases hsink
    · exact hnowhere
  · intro hnowhere
    exact sink_of_getElem? (h.sinks_of_leadsNowhere hnowhere)

/-- **Two handles lead to the same place** if and only if they go back to the same sink, or both to
sinks without a consumer. -/
theorem Routed.sameChannel_iff (h : Routed board steps) {a b : Nat}
    (ha : a < (makers steps).length) (hb : b < (makers steps).length) :
    (board.sink a).sameChannel (board.sink b) = true ↔
      (∃ root, IsCreated steps root ∧ Descends steps root a ∧ Descends steps root b) ∨
        LeadsNowhere steps a ∧ LeadsNowhere steps b := by
  unfold EventSink.sameChannel
  rw [decide_eq_true_eq]
  constructor
  · intro hsame
    cases hsink : board.sink a with
    | connected consumer =>
      -- a consumer has one own sink, so that both handles go back to it
      obtain ⟨own, hown, hdescends⟩ := (h.sink_eq_connected_iff ha consumer).mp hsink
      obtain ⟨own', hown', hdescends'⟩ :=
        (h.sink_eq_connected_iff hb consumer).mp (hsame.symm.trans hsink)
      rw [← hown.unique hown'] at hdescends'
      exact .inl ⟨own, hown.isCreated, hdescends, hdescends'⟩
    | disconnected =>
      have ha' := (h.sink_eq_disconnected_iff ha).mp hsink
      have hb' := (h.sink_eq_disconnected_iff hb).mp (hsame.symm.trans hsink)
      exact .inr ⟨ha', hb'⟩
  · rintro (⟨root, -, hdescends, hdescends'⟩ | ⟨ha', hb'⟩)
    · refine sink_of_getElem? ?_
      rw [h.sinks_eq_of_descends hdescends, ← h.sinks_eq_of_descends hdescends']
      exact getElem?_sinks (h.length_eq ▸ hb)
    · rw [(h.sink_eq_disconnected_iff ha).mpr ha', (h.sink_eq_disconnected_iff hb).mpr hb']

/-- Handles that lead to the same place are the same value, and so this is an equivalence. -/
theorem equivalence_sameChannel (board : Switchboard) :
    Equivalence fun a b => (board.sink a).sameChannel (board.sink b) = true where
  refl _ := decide_eq_true rfl
  symm hab := decide_eq_true (of_decide_eq_true hab).symm
  trans hab hbc := decide_eq_true ((of_decide_eq_true hab).trans (of_decide_eq_true hbc))

/-! ## What is heard -/

/-- A consumer hears what is sent through the handles that lead to it, each event once. -/
theorem heardBy_eq_filter (consumer : Nat) {sent : List (Nat × Event)}
    (hheard : board.heard = sent.flatMap fun e => (board.sink e.1).deliver e.2) :
    board.heardBy consumer =
      (sent.filter fun e => board.sink e.1 = .connected consumer).map Prod.snd := by
  unfold heardBy
  rw [hheard]
  clear hheard
  induction sent with
  | nil => rfl
  | cons e rest ih =>
    rw [List.flatMap_cons, List.filter_append, List.map_append, ih, List.filter_cons]
    cases hsink : board.sink e.1 with
    | connected other => by_cases hother : other = consumer <;> simp [EventSink.deliver, hother]
    | disconnected => simp [EventSink.deliver]

/-! ## Later steps -/

/-- No handle is ever taken away. -/
theorem length_sinks_le_run (board : Switchboard) (step : Step) :
    board.sinks.length ≤ (board.run step).sinks.length := by
  rw [sinks_run, List.length_append]
  exact Nat.le_add_right _ _

/-- **Handles stay what they are**, whatever is made and sent later. -/
theorem sink_after {i : Nat} (later : List Step) (hlt : i < board.sinks.length) :
    (board.after later).sink i = board.sink i := by
  induction later generalizing board with
  | nil => rfl
  | cons step rest ih =>
    have hthere : i < (board.run step).sinks.length :=
      Nat.lt_of_lt_of_le hlt (length_sinks_le_run board step)
    exact (ih hthere).trans (sink_run step hlt)

/-- Through a handle that leads nowhere nothing is heard. -/
theorem run_emit_of_disconnected {i : Nat} (hsink : board.sink i = .disconnected) (event : Event) :
    board.run (.emit i event) = board := by
  have hheard : board.heard ++ (board.sink i).deliver event = board.heard := by
    rw [hsink]
    exact List.append_nil _
  show { board with heard := board.heard ++ (board.sink i).deliver event } = board
  rw [hheard]

/-! ## All of it together -/

open Classical in
/-- **Who hears what.** After any steps that use no handle before it is made, each consumer has one
own sink, and has heard the events that were sent through the handles that go back to it, each once
and in the order in which they were sent. What is sent through a handle that goes back to a sink
without a consumer is heard by nobody. Two handles lead to the same place if and only if they go back
to the same sink or both to sinks without a consumer; this relates handles as an equivalence does,
and no later step changes it. -/
theorem routes_after (steps : List Step) (h : UsesMade 0 steps) :
    let board := after {} steps
    let made := (makers steps).length
    (∀ consumer < board.consumers, ∃ own, IsOwnSink steps consumer own ∧
      ∀ other, IsOwnSink steps consumer other → other = own) ∧
    (∀ consumer, board.heardBy consumer =
      ((emissions steps).filter fun sent => LeadsTo steps consumer sent.1).map Prod.snd) ∧
    (∀ i, LeadsNowhere steps i → (∀ consumer, ¬LeadsTo steps consumer i) ∧
      ∀ event, board.run (.emit i event) = board) ∧
    (∀ a < made, ∀ b < made, (board.sink a).sameChannel (board.sink b) = true ↔
      (∃ root, IsCreated steps root ∧ Descends steps root a ∧ Descends steps root b) ∨
        LeadsNowhere steps a ∧ LeadsNowhere steps b) ∧
    (Equivalence fun a b => (board.sink a).sameChannel (board.sink b) = true) ∧
    ∀ later, ∀ a < made, ∀ b < made,
      ((board.after later).sink a).sameChannel ((board.after later).sink b) =
        (board.sink a).sameChannel (board.sink b) := by
  intro board made
  have hrouted : Routed board steps := routed_after h
  -- one consumer to a connection, then what is heard, silence, the classes, and what comes later
  refine ⟨?_, ?_, ?_, ?_, ?_, ?_⟩
  · intro consumer hlt
    rw [hrouted.consumers_eq] at hlt
    obtain ⟨own, hown⟩ := exists_isOwnSink hlt
    exact ⟨own, hown, fun other hother => hother.unique hown⟩
  · intro consumer
    rw [heardBy_eq_filter consumer hrouted.heard_eq]
    refine congrArg (List.map Prod.snd) (List.filter_congr fun sent hsent => ?_)
    rw [decide_eq_decide]
    exact hrouted.sink_eq_connected_iff (hrouted.emitted_lt sent hsent) consumer
  · intro i hnowhere
    have hsink := hrouted.sinks_of_leadsNowhere hnowhere
    refine ⟨?_, run_emit_of_disconnected (sink_of_getElem? hsink)⟩
    intro consumer hleads
    rw [hrouted.sinks_of_leadsTo hleads] at hsink
    cases hsink
  · intro a ha b hb
    exact hrouted.sameChannel_iff ha hb
  · exact equivalence_sameChannel board
  · intro later a ha b hb
    have ha' : a < board.sinks.length := hrouted.length_eq ▸ ha
    have hb' : b < board.sinks.length := hrouted.length_eq ▸ hb
    rw [sink_after later ha', sink_after later hb']

/-! ### Two consumers and a copy of a copy -/

def clickEvent : Event := { kind := .click, component := "card" }
def toggleEvent : Event := { kind := .toggle, component := "panel" }
def selectEvent : Event := { kind := .select, component := "table" }

/-- The handles 2 and 4 go back to 0, and 6 goes back to 3; 1 and 5 have no consumer, and so 7 has
none. -/
def forkedSteps : List Step :=
  [.connect, .disconnected, .copy 0, .connect, .copy 2, .emit 4 clickEvent, .byDefault, .copy 3,
    .copy 5, .emit 7 selectEvent, .emit 6 selectEvent, .emit 0 toggleEvent]

open Classical in
/-- The first consumer hears what is sent through its own sink and through the copy of a copy, and
still shares these two with nobody after more steps. -/
theorem routes_after_forkedSteps :
    UsesMade 0 forkedSteps ∧
    ((emissions forkedSteps).filter fun sent => LeadsTo forkedSteps 0 sent.1).map Prod.snd =
      [clickEvent, toggleEvent] ∧
    LeadsNowhere forkedSteps 7 ∧
    (after {} forkedSteps).run (.emit 7 clickEvent) = after {} forkedSteps ∧
    let later := (after {} forkedSteps).after [.copy 1, .connect, .emit 4 selectEvent]
    (later.sink 4).sameChannel (later.sink 0) = true ∧
    (later.sink 7).sameChannel (later.sink 1) = true ∧
    (later.sink 3).sameChannel (later.sink 0) = false := by
  have huses : UsesMade 0 forkedSteps := by decide
  obtain ⟨-, hheard, hnowhere, hsame, -, hlater⟩ := routes_after forkedSteps huses
  have h4 : Descends forkedSteps 0 4 := .copy rfl (.copy rfl .self)
  have h7 : LeadsNowhere forkedSteps 7 := ⟨5, .inr rfl, .copy rfl .self⟩
  have h1 : LeadsNowhere forkedSteps 1 := ⟨1, .inl rfl, .self⟩
  refine ⟨huses, (hheard 0).symm, h7, (hnowhere 7 h7).2 clickEvent, ?_, ?_, ?_⟩
  · -- later steps do not change whether two handles lead to the same place
    rw [hlater _ 4 (by decide) 0 (by decide)]
    exact (hsame 4 (by decide) 0 (by decide)).mpr (.inl ⟨0, ⟨.connect, rfl, rfl⟩, h4, .self⟩)
  · rw [hlater _ 7 (by decide) 1 (by decide)]
    exact (hsame 7 (by decide) 1 (by decide)).mpr (.inr ⟨h7, h1⟩)
  · rw [hlater _ 3 (by decide) 0 (by decide)]
    rfl

end Mosaic.Composition.Switchboard
