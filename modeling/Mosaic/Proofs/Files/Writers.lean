import Mathlib.Logic.Function.Basic
import Mathlib.Logic.Relation
import Mosaic.Proofs.Files.Attempt

/-!
# Writers side by side

Any number of writers replace the same file at the same time. Their steps come in any order, and
each of them may give up after any of its steps, or break down and leave its scratch file behind.
The file is never seen half written: it is as it was in the beginning until the first writer is
done, and from then on it has the text of the writer that was the last to be done.

* `Writer.Moves`, `Writer.Stride`: the moves of a writer, and what each does to the entries of
  the directory and to the phase of the writer.
* `Workplace`, `Workplace.Reaches`: the writers in their directory, step after step.
* `Workplace.Sound`: what holds at every moment.
* `Workplace.Sound.after`, `Workplace.sound_of_reaches`: one step, and all of them.
* `Workplace.reaches_advanceBy`: the steps of one writer that nobody disturbs.
-/

namespace Mosaic.Files

/-! ## Moves -/

/-- Whether a writer has put its file in place. -/
def Phase.isDone : Phase → Bool
  | .done => true
  | _ => false

theorem Phase.isDone_iff {phase : Phase} : phase.isDone = true ↔ phase = .done := by
  cases phase <;> simp [isDone]

namespace Writer

/-- A move of a writer. Besides going on and giving up, it may begin with a scratch file of any
name that is free, and it may break down, whatever is in its scratch file then. -/
inductive Moves : Entries × Writer → Entries × Writer → Prop
  | begins {entries : Entries} {writer : Writer} {scratch : String} :
    writer.phase = .idle → scratch ≠ writer.target → scratch ∉ entries.map Prod.fst →
    Moves (entries, writer)
      (putEntry scratch (.file .empty) entries,
        { writer with phase := .writing scratch writer.pieces })
  | advances (entries : Entries) (writer : Writer) :
    Moves (entries, writer) (writer.advance entries)
  | abandons (entries : Entries) (writer : Writer) (fault : Fault) :
    Moves (entries, writer) (writer.abandon fault entries)
  | breaks {entries : Entries} {writer : Writer} {scratch : String} {rest : List String}
      (content : ByteArray) (fault : Fault) :
    writer.phase = .writing scratch rest →
    Moves (entries, writer)
      (putEntry scratch (.file content) entries, { writer with phase := .failed fault })

/-- What a move does: to the phase of the writer, and to the entries of its directory. -/
inductive Stride (target : String) (pieces : List String) :
    Phase → Entries → Phase → Entries → Prop
  | begins {scratch : String} {entries : Entries} :
    scratch ≠ target → scratch ∉ entries.map Prod.fst →
    Stride target pieces .idle entries (.writing scratch pieces)
      (putEntry scratch (.file .empty) entries)
  | writes {scratch piece : String} {rest : List String} {entries : Entries} :
    Stride target pieces (.writing scratch (piece :: rest)) entries (.writing scratch rest)
      (putEntry scratch (.file (contentOf entries scratch ++ piece.toUTF8)) entries)
  | lands {scratch : String} {entries : Entries} :
    (∀ inside, entries.lookup target ≠ some (.directory inside)) →
    Stride target pieces (.writing scratch []) entries .done (renameEntry scratch target entries)
  | fails {fault : Fault} {entries : Entries} :
    Stride target pieces .idle entries (.failed fault) entries
  | clears {scratch : String} {rest : List String} {fault : Fault} {entries : Entries} :
    Stride target pieces (.writing scratch rest) entries (.failed fault)
      (removeEntry scratch entries)
  | breaks {scratch : String} {rest : List String} {fault : Fault} {entries : Entries}
      {content : ByteArray} :
    Stride target pieces (.writing scratch rest) entries (.failed fault)
      (putEntry scratch (.file content) entries)
  | stays {phase : Phase} {entries : Entries} :
    (∀ scratch rest, phase ≠ .writing scratch rest) →
    Stride target pieces phase entries phase entries

/-- A move keeps the order of a writer, and does one of these things. -/
theorem Moves.stride {before after : Entries × Writer} (h : Moves before after) :
    after.2.target = before.2.target ∧ after.2.pieces = before.2.pieces ∧
      Stride before.2.target before.2.pieces before.2.phase before.1 after.2.phase after.1 := by
  cases h with
  | begins hidle htarget hscratch =>
    refine ⟨rfl, rfl, ?_⟩
    rw [hidle]
    exact .begins htarget hscratch
  | advances entries writer =>
    -- what a step does depends on the phase alone, and on whether pieces are left
    obtain ⟨target, pieces, phase⟩ := writer
    rcases phase with _ | ⟨scratch, _ | ⟨piece, rest⟩⟩ | _ | fault
    · obtain ⟨htarget, hscratch⟩ := scratch_fresh target entries
      exact ⟨rfl, rfl, .begins htarget hscratch⟩
    · -- the last step is refused if a directory is in the way
      by_cases hdirectory : ∃ inside, entries.lookup target = some (.directory inside)
      · have hrefused := (getD_isDirectory_iff _).mpr hdirectory
        simp only [advance, hrefused, if_true, abandon]
        exact ⟨trivial, trivial, .clears⟩
      · have haccepted := (Bool.not_eq_true _).mp (mt (getD_isDirectory_iff _).mp hdirectory)
        simp only [advance, haccepted, Bool.false_eq_true, if_false]
        exact ⟨trivial, trivial, .lands (not_exists.mp hdirectory)⟩
    · exact ⟨rfl, rfl, .writes⟩
    · exact ⟨rfl, rfl, .stays (by simp)⟩
    · exact ⟨rfl, rfl, .stays (by simp)⟩
  | abandons entries writer fault =>
    obtain ⟨target, pieces, phase⟩ := writer
    cases phase with
    -- a writer gives up without a trace before it has a scratch file, and clears it away afterwards
    | idle => exact ⟨rfl, rfl, .fails⟩
    | writing scratch rest => exact ⟨rfl, rfl, .clears⟩
    | done | failed => exact ⟨rfl, rfl, .stays (by simp)⟩
  | breaks content fault hwriting =>
    refine ⟨rfl, rfl, ?_⟩
    rw [hwriting]
    exact .breaks

/-! ## What one move leaves alone -/

section

variable {target : String} {pieces : List String} {phase phase' : Phase}
  {entries entries' : Entries}

/-- Besides the target and the scratch file a renaming changes nothing. -/
theorem lookup_renameEntry_of_ne {scratch name : String} (htarget : name ≠ target)
    (hscratch : name ≠ scratch) :
    (renameEntry scratch target entries).lookup name = entries.lookup name := by
  rw [renameEntry, lookup_putEntry_of_ne htarget, lookup_removeEntry_of_ne hscratch]

/-- Every entry but the target and the scratch file of the writer stays as it is. -/
theorem Stride.lookup_of_ne {name : String} (h : Stride target pieces phase entries phase' entries')
    (htarget : name ≠ target) (hbefore : ∀ rest, phase ≠ .writing name rest)
    (hafter : ∀ rest, phase' ≠ .writing name rest) :
    entries'.lookup name = entries.lookup name := by
  have hold : ∀ scratch rest, phase = .writing scratch rest → name ≠ scratch := by
    rintro scratch rest hphase rfl
    exact hbefore rest hphase
  have hnew : ∀ scratch rest, phase' = .writing scratch rest → name ≠ scratch := by
    rintro scratch rest hphase rfl
    exact hafter rest hphase
  -- whatever is touched is the scratch file, before the move or after it
  cases h with
  | begins _ _ => exact lookup_putEntry_of_ne (hnew _ _ rfl) _ _
  | writes => exact lookup_putEntry_of_ne (hold _ _ rfl) _ _
  | lands _ => exact lookup_renameEntry_of_ne htarget (hold _ _ rfl)
  | fails => rfl
  | clears => exact lookup_removeEntry_of_ne (hold _ _ rfl) _
  | breaks => exact lookup_putEntry_of_ne (hold _ _ rfl) _ _
  | stays _ => rfl

/-- The scratch file is a file of some content, or is gone. -/
theorem Stride.lookup_scratch {scratch : String}
    (h : Stride target pieces phase entries phase' entries') (htarget : scratch ≠ target)
    (hscratch : (∃ rest, phase = .writing scratch rest) ∨ ∃ rest, phase' = .writing scratch rest) :
    entries'.lookup scratch = none ∨
      ∃ content, entries'.lookup scratch = some (.file content) := by
  -- only moves with a scratch file are left by `hscratch`, and it is the file of that name
  cases h with
  | begins | writes | breaks =>
    simp only [reduceCtorEq, Phase.writing.injEq, exists_false, false_or, or_false,
      exists_and_left] at hscratch
    obtain ⟨rfl, -⟩ | ⟨rfl, -⟩ := hscratch
    all_goals exact .inr ⟨_, lookup_putEntry_self _ _⟩
  | lands _ =>
    simp only [reduceCtorEq, Phase.writing.injEq, exists_false, or_false, exists_and_left]
      at hscratch
    rw [hscratch.1, renameEntry, lookup_putEntry_of_ne (hscratch.1 ▸ htarget),
      lookup_removeEntry_self]
    exact .inl rfl
  | clears =>
    simp only [reduceCtorEq, Phase.writing.injEq, exists_false, or_false, exists_and_left]
      at hscratch
    rw [hscratch.1, lookup_removeEntry_self]
    exact .inl rfl
  | fails => simp at hscratch
  | stays hphase =>
    obtain ⟨rest, hrest⟩ | ⟨rest, hrest⟩ := hscratch
    all_goals exact absurd hrest (hphase scratch rest)

/-- A writer that is done does not move any more. -/
theorem Stride.eq_done (h : Stride target pieces phase entries phase' entries')
    (hdone : phase = .done) : phase' = .done := by
  cases h with
  | stays _ => exact hdone
  | begins | writes | lands | fails | clears | breaks => cases hdone

/-- No writer gets done if a directory is in the way. -/
theorem Stride.ne_directory (h : Stride target pieces phase entries phase' entries')
    (hlanded : (phase'.isDone && !phase.isDone) = true) (inside : Entries) :
    entries.lookup target ≠ some (.directory inside) := by
  cases h with
  | lands hclear => exact hclear inside
  | stays _ =>
    rw [Bool.and_not_self] at hlanded
    cases hlanded
  | begins | writes | fails | clears | breaks => cases hlanded

/-- A writer that has a scratch file had it before, or has made it under a new name. -/
theorem Stride.writing_cases {scratch : String} {rest : List String}
    (h : Stride target pieces phase entries phase' entries')
    (hafter : phase' = .writing scratch rest) :
    (∃ more, phase = .writing scratch more) ∨ phase = .idle ∧ scratch ∉ entries.map Prod.fst := by
  cases h with
  | begins _ hscratch =>
    obtain ⟨rfl, -⟩ := Phase.writing.inj hafter
    exact .inr ⟨rfl, hscratch⟩
  | writes =>
    obtain ⟨rfl, -⟩ := Phase.writing.inj hafter
    exact .inl ⟨_, rfl⟩
  | stays _ => exact .inl ⟨rest, hafter⟩
  | lands | fails | clears | breaks => cases hafter

end

end Writer

/-! ## Many writers -/

/-- The writers in a directory, and those that are done in the order in which they were. -/
structure Workplace (ι : Type) where
  entries : Entries
  writers : ι → Writer
  finished : List ι

namespace Workplace

variable {ι : Type}

/-- The workplace after a move of one writer, which may have been the one that made it done. -/
def after [DecidableEq ι] (place : Workplace ι) (i : ι) (moved : Entries × Writer) : Workplace ι where
  entries := moved.1
  writers := Function.update place.writers i moved.2
  finished :=
    if moved.2.phase.isDone && !(place.writers i).phase.isDone then place.finished ++ [i]
    else place.finished

/-- Some writer moves. -/
def Step [DecidableEq ι] (place next : Workplace ι) : Prop :=
  ∃ i moved, Writer.Moves (place.entries, place.writers i) moved ∧ next = place.after i moved

/-- Writers move one after the other, in whatever order. -/
abbrev Reaches [DecidableEq ι] : Workplace ι → Workplace ι → Prop := Relation.ReflTransGen Step

/-- Nobody has begun. -/
def start (entries : Entries) (target : String) (pieces : ι → List String) : Workplace ι where
  entries
  writers i := { target, pieces := pieces i }
  finished := []

/-- The text of the last writer that is done stands at the target, or what there was if no writer
is done. -/
def standing (entries : Entries) (target : String) (pieces : ι → List String)
    (finished : List ι) : Option FileTree :=
  match finished.getLast? with
  | none => entries.lookup target
  | some i => some (.file (String.join (pieces i)).toUTF8)

/-- The scratch file of a writer is its own, and has the pieces that are written already. -/
structure Owned (first : Entries) (target : String) (pieces : List String) (entries : Entries)
    (scratch : String) (rest : List String) : Prop where
  ne_target : scratch ≠ target
  fresh : first.lookup scratch = none
  content : ∃ written, written ++ rest = pieces ∧
    entries.lookup scratch = some (.file (String.join written).toUTF8)

/-- What holds at every moment, of a directory that had the entries `first`. -/
structure Sound (first : Entries) (target : String) (pieces : ι → List String)
    (place : Workplace ι) : Prop where
  target_eq : ∀ i, (place.writers i).target = target
  pieces_eq : ∀ i, (place.writers i).pieces = pieces i
  finished_iff : ∀ i, i ∈ place.finished ↔ (place.writers i).phase = .done
  owned : ∀ i scratch rest, (place.writers i).phase = .writing scratch rest →
    Owned first target (pieces i) place.entries scratch rest
  /-- No two writers have the same scratch file. -/
  apart : ∀ i j scratch rest more, (place.writers i).phase = .writing scratch rest →
    (place.writers j).phase = .writing scratch more → i = j
  standing_eq : place.entries.lookup target = standing first target pieces place.finished
  /-- Nobody is done if a directory is in the way. -/
  clear : place.finished ≠ [] → ∀ inside, first.lookup target ≠ some (.directory inside)
  /-- Besides the target there are the old entries, and files that were not there before. -/
  others : ∀ name, name ≠ target → place.entries.lookup name = first.lookup name ∨
    first.lookup name = none ∧ ∃ content, place.entries.lookup name = some (.file content)

variable {first : Entries} {target : String} {pieces : ι → List String} {place : Workplace ι}

/-- All is sound while nobody has moved. -/
theorem sound_start : Sound first target pieces (start first target pieces) where
  target_eq _ := rfl
  pieces_eq _ := rfl
  finished_iff _ := iff_of_false List.not_mem_nil (by simp [start])
  owned _ _ _ h := by cases h
  apart _ _ _ _ _ h := by cases h
  standing_eq := rfl
  clear h := absurd rfl h
  others _ _ := .inl rfl

/-! ## One move -/

section

variable {own : List String} {phase phase' : Phase} {entries entries' : Entries}

/-- A scratch file stays its writer's own as long as no one else touches it. -/
theorem Owned.of_lookup {scratch : String} {rest : List String}
    (h : Owned first target own entries scratch rest)
    (hsame : entries'.lookup scratch = entries.lookup scratch) :
    Owned first target own entries' scratch rest where
  ne_target := h.ne_target
  fresh := h.fresh
  content := by
    rw [hsame]
    exact h.content

/-- What is read of a file is its content. -/
theorem contentOf_of_lookup {name : String} {content : ByteArray}
    (h : entries.lookup name = some (.file content)) : contentOf entries name = content := by
  rw [contentOf, h]

/-- The scratch file of the writer that moves is its own again. -/
theorem Owned.of_stride (h : Writer.Stride target own phase entries phase' entries')
    (howned : ∀ scratch rest, phase = .writing scratch rest →
      Owned first target own entries scratch rest)
    (hothers : ∀ name, name ≠ target → entries.lookup name = first.lookup name ∨
      first.lookup name = none ∧ ∃ content, entries.lookup name = some (.file content))
    {scratch : String} {rest : List String} (hafter : phase' = .writing scratch rest) :
    Owned first target own entries' scratch rest := by
  cases h with
  | @begins name _ htarget hscratch =>
    obtain ⟨rfl, rfl⟩ := Phase.writing.inj hafter
    -- a name that is free now was free in the beginning, since no entry but the target goes away
    have hnone := lookup_eq_none_iff_not_mem_keys.mpr hscratch
    have hfresh : first.lookup name = none := by
      rcases hothers _ htarget with hsame | ⟨hfresh, -⟩
      · exact hsame.symm.trans hnone
      · exact hfresh
    exact ⟨htarget, hfresh, [], rfl, lookup_putEntry_self _ _⟩
  | @writes _ piece =>
    obtain ⟨rfl, rfl⟩ := Phase.writing.inj hafter
    obtain ⟨htarget, hfresh, written, hwritten, hcontent⟩ := howned _ _ rfl
    refine ⟨htarget, hfresh, written ++ [piece], by rw [← List.append_cons, hwritten], ?_⟩
    rw [lookup_putEntry_self, contentOf_of_lookup hcontent, Writer.toUTF8_join_concat]
  | stays _ => exact howned _ _ hafter
  | lands | fails | clears | breaks => cases hafter

/-- The target changes when a writer gets done, and has all its pieces then. -/
theorem lookup_target_of_stride (h : Writer.Stride target own phase entries phase' entries')
    (howned : ∀ scratch rest, phase = .writing scratch rest →
      Owned first target own entries scratch rest) :
    entries'.lookup target =
      if phase'.isDone && !phase.isDone then some (.file (String.join own).toUTF8)
      else entries.lookup target := by
  cases h with
  | begins htarget _ => exact lookup_putEntry_of_ne htarget.symm _ _
  | writes => exact lookup_putEntry_of_ne (howned _ _ rfl).ne_target.symm _ _
  | lands _ =>
    -- nothing is left to be written, so that all pieces are in the scratch file
    obtain ⟨-, -, written, hwritten, hcontent⟩ := howned _ _ rfl
    rw [List.append_nil] at hwritten
    rw [renameEntry, lookup_putEntry_self, contentOf_of_lookup hcontent, hwritten]
    rfl
  | fails => rfl
  | clears => exact lookup_removeEntry_of_ne (howned _ _ rfl).ne_target.symm _
  | breaks => exact lookup_putEntry_of_ne (howned _ _ rfl).ne_target.symm _ _
  | stays _ => rw [Bool.and_not_self, if_neg Bool.false_ne_true]

end

/-- The writer that finishes last leaves its own text. -/
theorem standing_concat (finished : List ι) (i : ι) :
    standing first target pieces (finished ++ [i]) =
      some (.file (String.join (pieces i)).toUTF8) := by
  rw [standing, List.getLast?_concat]

namespace Sound

variable (h : Sound first target pieces place) {i : ι} {moved : Entries × Writer}
  (hmove : Writer.Moves (place.entries, place.writers i) moved)
include h hmove

/-- The move as one of the strides that the target and the pieces of this writer allow. -/
theorem stride : Writer.Stride target (pieces i) (place.writers i).phase place.entries
    moved.2.phase moved.1 := by
  obtain ⟨-, -, hstride⟩ := hmove.stride
  rwa [h.target_eq, h.pieces_eq] at hstride

/-- No other writer loses its scratch file. -/
theorem scratch_ne {j : ι} (hj : j ≠ i) {scratch : String} {rest : List String}
    (hwriting : (place.writers j).phase = .writing scratch rest) :
    (∀ more, (place.writers i).phase ≠ .writing scratch more) ∧
      ∀ more, moved.2.phase ≠ .writing scratch more := by
  have hbefore : ∀ more, (place.writers i).phase ≠ .writing scratch more :=
    fun more hmore => hj (h.apart j i scratch rest more hwriting hmore)
  refine ⟨hbefore, fun more hmore => ?_⟩
  obtain ⟨-, -, written, -, hcontent⟩ := h.owned j scratch rest hwriting
  rcases (h.stride hmove).writing_cases hmore with ⟨others, hothers⟩ | ⟨-, hnew⟩
  · exact hbefore others hothers
  · -- a scratch file is not made under a name that is taken
    rw [lookup_eq_none_iff_not_mem_keys.mpr hnew] at hcontent
    cases hcontent

/-- What a writer has touched at its scratch name is a file that was not there in the beginning. -/
theorem fresh_of_writing {name : String}
    (hwriting : (∃ rest, (place.writers i).phase = .writing name rest) ∨
      ∃ rest, moved.2.phase = .writing name rest) :
    name ≠ target ∧ first.lookup name = none := by
  rcases hwriting with ⟨rest, hrest⟩ | ⟨rest, hrest⟩
  · have howned := h.owned i name rest hrest
    exact ⟨howned.ne_target, howned.fresh⟩
  · have howned := Owned.of_stride (h.stride hmove) (h.owned i) h.others hrest
    exact ⟨howned.ne_target, howned.fresh⟩

variable [DecidableEq ι]

/-- The writers that are done after a move are those that were, and the one that has moved if it is
done now. -/
theorem mem_finished_after_iff (j : ι) :
    j ∈ (place.after i moved).finished ↔ ((place.after i moved).writers j).phase = .done := by
  show j ∈ (if moved.2.phase.isDone && !(place.writers i).phase.isDone then place.finished ++ [i]
    else place.finished) ↔ (Function.update place.writers i moved.2 j).phase = .done
  by_cases hj : j = i
  · subst hj
    rw [Function.update_self, ← Phase.isDone_iff]
    cases hwas : (place.writers j).phase.isDone with
    | true =>
      -- a writer that was done does not move any more
      have hdone := Phase.isDone_iff.mp hwas
      have hstill := (h.stride hmove).eq_done hdone
      rw [Bool.not_true, Bool.and_false, if_neg Bool.false_ne_true, hstill]
      exact iff_of_true ((h.finished_iff j).mpr hdone) rfl
    | false =>
      have hnot : j ∉ place.finished := by
        rw [h.finished_iff j, ← Phase.isDone_iff, hwas]
        exact Bool.false_ne_true
      rw [Bool.not_false, Bool.and_true]
      cases moved.2.phase.isDone with
      | true => exact iff_of_true (List.mem_append_right _ (List.mem_singleton_self j)) rfl
      | false => exact iff_of_false hnot Bool.false_ne_true
  · rw [Function.update_of_ne hj, ← h.finished_iff j]
    split
    · rw [List.mem_append, List.mem_singleton, or_iff_left hj]
    · exact Iff.rfl

/-- **One move** of one writer keeps everything sound. -/
theorem after : Sound first target pieces (place.after i moved) where
  target_eq j := by
    show (Function.update place.writers i moved.2 j).target = target
    by_cases hj : j = i
    · rw [hj, Function.update_self, hmove.stride.1, h.target_eq]
    · rw [Function.update_of_ne hj, h.target_eq]
  pieces_eq j := by
    show (Function.update place.writers i moved.2 j).pieces = pieces j
    by_cases hj : j = i
    · rw [hj, Function.update_self, hmove.stride.2.1, h.pieces_eq]
    · rw [Function.update_of_ne hj, h.pieces_eq]
  finished_iff := h.mem_finished_after_iff hmove
  owned j scratch rest hwriting := by
    change (Function.update place.writers i moved.2 j).phase = .writing scratch rest at hwriting
    -- the writer that has moved owns what it has made, and the others keep what they own
    by_cases hj : j = i
    · subst hj
      rw [Function.update_self] at hwriting
      exact .of_stride (h.stride hmove) (h.owned j) h.others hwriting
    · rw [Function.update_of_ne hj] at hwriting
      obtain ⟨hbefore, hafter⟩ := h.scratch_ne hmove hj hwriting
      have howned := h.owned j scratch rest hwriting
      exact howned.of_lookup ((h.stride hmove).lookup_of_ne howned.ne_target hbefore hafter)
  apart j k scratch rest more hj hk := by
    change (Function.update place.writers i moved.2 j).phase = .writing scratch rest at hj
    change (Function.update place.writers i moved.2 k).phase = .writing scratch more at hk
    -- only the writer that has moved has a new scratch file, under a name that no other has
    by_cases hji : j = i
    · by_cases hki : k = i
      · rw [hji, hki]
      · rw [hji, Function.update_self] at hj
        rw [Function.update_of_ne hki] at hk
        exact absurd hj ((h.scratch_ne hmove hki hk).2 rest)
    · rw [Function.update_of_ne hji] at hj
      by_cases hki : k = i
      · rw [hki, Function.update_self] at hk
        exact absurd hk ((h.scratch_ne hmove hji hj).2 more)
      · rw [Function.update_of_ne hki] at hk
        exact h.apart j k scratch rest more hj hk
  standing_eq := by
    show moved.1.lookup target = standing first target pieces
      (if moved.2.phase.isDone && !(place.writers i).phase.isDone then place.finished ++ [i]
        else place.finished)
    rw [lookup_target_of_stride (h.stride hmove) (h.owned i)]
    split
    · rw [standing_concat]
    · exact h.standing_eq
  clear hfinished := by
    by_cases hnobody : place.finished = []
    · -- the writer that has moved is the first to be done
      have hlanded : (moved.2.phase.isDone && !(place.writers i).phase.isDone) = true := by
        by_contra hnot
        exact hfinished ((if_neg hnot).trans hnobody)
      have hclear := (h.stride hmove).ne_directory hlanded
      rw [h.standing_eq, hnobody] at hclear
      exact hclear
    · exact h.clear hnobody
  others name hname := by
    have hstride := h.stride hmove
    -- besides the target a move touches nothing but the scratch file of its writer
    by_cases hwriting : (∃ rest, (place.writers i).phase = .writing name rest) ∨
        ∃ rest, moved.2.phase = .writing name rest
    · have hfresh := (h.fresh_of_writing hmove hwriting).2
      rcases hstride.lookup_scratch hname hwriting with hgone | hfile
      · exact .inl (hgone.trans hfresh.symm)
      · exact .inr ⟨hfresh, hfile⟩
    · rw [not_or, not_exists, not_exists] at hwriting
      show moved.1.lookup name = _ ∨ _ ∧ ∃ content, moved.1.lookup name = _
      rw [hstride.lookup_of_ne hname hwriting.1 hwriting.2]
      exact h.others name hname

end Sound

/-- A move that changes the target makes its writer done. -/
theorem Sound.done_of_lookup_ne (h : Sound first target pieces place) {i : ι}
    {moved : Entries × Writer} (hmove : Writer.Moves (place.entries, place.writers i) moved)
    (hchanged : moved.1.lookup target ≠ place.entries.lookup target) :
    moved.2.phase = .done := by
  by_contra hnot
  refine hchanged ?_
  have hphase := (Bool.not_eq_true _).mp (mt Phase.isDone_iff.mp hnot)
  rw [lookup_target_of_stride (h.stride hmove) (h.owned i), hphase, Bool.false_and,
    if_neg Bool.false_ne_true]

/-! ## All moves -/

section

variable [DecidableEq ι]

/-- **At every moment** all is sound, whatever moves have been made. -/
theorem sound_of_reaches (h : Reaches (start first target pieces) place) :
    Sound first target pieces place := by
  -- the induction is on the moves, whoever makes them; soundness is what each of them keeps
  induction h with
  | refl => exact sound_start
  | tail _ hstep ih =>
    obtain ⟨i, moved, hmove, rfl⟩ := hstep
    exact ih.after hmove

/-- A move that changes nothing leaves the workplace as it was. -/
theorem after_self (place : Workplace ι) (i : ι) :
    place.after i (place.entries, place.writers i) = place := by
  simp only [after, Function.update_eq_self, Bool.and_not_self, Bool.false_eq_true, if_false]

/-- Of two moves of a writer the last one counts, since a writer that is done stays so. -/
theorem after_after {i : ι} {moved again : Entries × Writer}
    (hmoved : (place.writers i).phase.isDone = true → moved.2.phase.isDone = true)
    (hagain : moved.2.phase.isDone = true → again.2.phase.isDone = true) :
    (place.after i moved).after i again = place.after i again := by
  simp only [after, Function.update_idem, Function.update_self]
  congr 1
  cases hwas : (place.writers i).phase.isDone with
  | true => simp [hmoved hwas]
  | false =>
    cases hnow : moved.2.phase.isDone with
    | true => simp [hagain hnow]
    | false => simp

/-- A writer that is done stays done with its next step. -/
theorem isDone_advance {writer : Writer} (entries : Entries) (h : writer.phase.isDone = true) :
    (writer.advance entries).2.phase.isDone = true := by
  have hdone := (Writer.Moves.advances entries writer).stride.2.2.eq_done (Phase.isDone_iff.mp h)
  exact Phase.isDone_iff.mpr hdone

/-- A writer that is done stays done. -/
theorem isDone_advanceBy (steps : Nat) {writer : Writer} (entries : Entries)
    (h : writer.phase.isDone = true) : (writer.advanceBy steps entries).2.phase.isDone = true := by
  induction steps generalizing writer entries with
  | zero => exact h
  | succ steps ih => exact ih _ (isDone_advance entries h)

/-- The steps of one writer that nobody disturbs are such moves. -/
theorem reaches_advanceBy (steps : Nat) (place : Workplace ι) (i : ι) :
    Reaches place (place.after i ((place.writers i).advanceBy steps place.entries)) := by
  induction steps generalizing place with
  | zero =>
    show Reaches place (place.after i (place.entries, place.writers i))
    rw [after_self]
  | succ steps ih =>
    have hstep : Step place (place.after i ((place.writers i).advance place.entries)) :=
      ⟨i, _, .advances place.entries (place.writers i), rfl⟩
    -- the other steps are made by the writer as it is after the first one
    have hrest := ih (place.after i ((place.writers i).advance place.entries))
    rw [after_after (isDone_advance place.entries)] at hrest
    · simp only [after, Function.update_self] at hrest
      exact .head hstep hrest
    · intro hdone
      simp only [after, Function.update_self]
      exact isDone_advanceBy steps _ hdone

end

end Workplace

end Mosaic.Files
