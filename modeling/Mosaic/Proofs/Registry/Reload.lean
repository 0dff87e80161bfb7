import Mosaic.Proofs.Files.Attempt
import Mosaic.Proofs.Registry.Sources
import Mosaic.Proofs.Registry.Storage

/-!
# Loading what was written

A manifest is written whatever its schemas are. The reader has limits, however: it gives up on a
schema that is nested too deep and on one with a number out of range, and takes everything else
that is ever written. So the schemas decide whether a written registry can be loaded.

* `Unreadable`: why a reader gives up on what was written.
* `Manifest.Fits`: the manifests all of whose schemas are read.
* `Manifest.readsBack_of_fits`, `Manifest.rejects_of_not_fits`: the written form of a manifest.
* `Manifest.parse_fileText_iff`: the texts of manifests that are read.
* `Manifest.load_ofComponents_iff`: the written manifests that are loaded.
* `not_load_write_nestedCard`: a written manifest that is not loaded.
-/

namespace Mosaic.Registry

open Files Json Json.Form

/-- Why a reader gives up on a text that was written: it is nested too deep, or has a number out of
range. -/
def Unreadable (cause : Cause) : Prop := TooDeep cause ∨ OutOfRange cause

theorem not_exists_error_eq_ok {ε α : Type} {error : ε} :
    ¬∃ a : α, Except.error error = Except.ok a := by
  rintro ⟨a, h⟩
  cases h

/-! ## Entries -/

section

variable {d : Nat} {entry : Entry}

/-- An entry is rejected with its schema, before which only the description is read. -/
theorem Entry.rejects_form (h : ¬FitsIn d entry.schema) :
    Entry.form.Rejects (d + 1) entry.toJson Unreadable := by
  have hschema : Form.value.Rejects d entry.schema Unreadable :=
    rejects_value (.inl rfl) (.inr (.inr rfl)) h
  refine rejects_record (.of (readsBack_text _ entry.description) rfl rfl ?_)
  exact .at hschema rfl rfl

end

namespace Manifest

/-! ## Manifests -/

section

variable {manifest : Manifest}

/-- Whether a reader takes all schemas of a manifest. -/
def Fits (manifest : Manifest) : Prop :=
  ∀ entry ∈ manifest.components.entries, FitsIn schemaDepth entry.2.schema

theorem readsBack_of_fits (hleast : 0 ≤ manifest.generatedAt.date.year)
    (hgreatest : manifest.generatedAt.date.year ≤ 9999) (hcount : manifest.totalComponents < 2 ^ 64)
    (h : manifest.Fits) : ∃ found, form.ReadsBack nestingLimit manifest.toJson found := by
  have hschemas : ∀ entry ∈ manifest.components.entries, ∃ schema,
      Form.value.ReadsBack schemaDepth entry.2.schema schema :=
    fun entry hentry => exists_readsBack_value (h entry hentry)
  -- a schema need not be read as itself: a number may lose its last digit
  choose! schema hschema using hschemas
  have hcomponents : (Form.dict Entry.form).ReadsBack (schemaDepth + 2)
      (.ofDict (manifest.components.map fun _ entry => entry.toJson))
      (manifest.components.map fun kind entry => { entry with schema := schema (kind, entry) }) :=
    readsBack_dict_map fun entry hentry => Entry.readsBack_form (hschema entry hentry)
  exact ⟨_, readsBack_of_components hleast hgreatest hcount hcomponents⟩

/-- A manifest is rejected for a schema, after the time, the version and the count were read. -/
theorem rejects_of_not_fits (hleast : 0 ≤ manifest.generatedAt.date.year)
    (hgreatest : manifest.generatedAt.date.year ≤ 9999) (hcount : manifest.totalComponents < 2 ^ 64)
    (h : ¬manifest.Fits) : form.Rejects nestingLimit manifest.toJson Unreadable := by
  unfold Fits at h
  rw [not_forall₂] at h
  obtain ⟨entry, hentry, hfits⟩ := h
  have hcomponents : (Form.dict Entry.form).Rejects (schemaDepth + 2)
      (.ofDict (manifest.components.map fun _ entry => entry.toJson)) Unreadable := by
    refine rejects_dict (fun other _ => ?_) ⟨entry, hentry, Entry.rejects_form hfits⟩
    -- entries before that one are read, or rejected in their turn
    by_cases hother : FitsIn schemaDepth other.2.schema
    · obtain ⟨schema, hschema⟩ := exists_readsBack_value hother
      exact .inl ⟨_, Entry.readsBack_form hschema⟩
    · exact .inr (Entry.rejects_form hother)
  -- the components come fourth
  refine rejects_record (.of (readsBack_time hleast hgreatest) rfl rfl ?_)
  refine .of (readsBack_text _ manifest.version) rfl rfl ?_
  refine .of (readsBack_count hcount) rfl rfl ?_
  exact .at hcomponents rfl rfl

/-- **The texts of manifests** are read if and only if their schemas are, and given up on for the
limits of the reader only. -/
theorem parse_fileText_iff (hleast : 0 ≤ manifest.generatedAt.date.year)
    (hgreatest : manifest.generatedAt.date.year ≤ 9999)
    (hcount : manifest.totalComponents < 2 ^ 64) :
    ((∃ found, parse manifest.fileText = .ok found) ↔ manifest.Fits) ∧
      ∀ error, parse manifest.fileText = .error error → Unreadable error.cause := by
  rw [parse, fileText_eq]
  by_cases h : manifest.Fits
  · -- whether the text is read back depends on the depth of the schemas alone
    obtain ⟨found, hfound⟩ := readsBack_of_fits hleast hgreatest hcount h
    have hparse := parse_of_readsBack hfound Spacing.indented ['\n'] fun _ => isBlank_of_mem_newline
    rw [hparse]
    refine ⟨iff_of_true ⟨found, rfl⟩ h, ?_⟩
    intro error herror
    cases herror
  · have hrejects := rejects_of_not_fits hleast hgreatest hcount h
    obtain ⟨fault, hparse, hcause⟩ :=
      parse_of_rejects hrejects Spacing.indented ['\n'] fun _ => isBlank_of_mem_newline
    rw [hparse]
    refine ⟨iff_of_false not_exists_error_eq_ok h, ?_⟩
    intro error herror
    rw [← Except.error.inj herror]
    exact hcause

/-- A file with such a text is loaded, or refused for the same reasons. -/
theorem load_iff_fits (hleast : 0 ≤ manifest.generatedAt.date.year)
    (hgreatest : manifest.generatedAt.date.year ≤ 9999) (hcount : manifest.totalComponents < 2 ^ 64)
    {system : System} {path : Path} (htext : system.readText path = .ok manifest.fileText) :
    ((∃ found, load system path = .ok found) ↔ manifest.Fits) ∧
      ∀ error, load system path = .error error →
        ∃ fault, error = .invalid fault ∧ Unreadable fault.cause := by
  obtain ⟨hok, herror⟩ := parse_fileText_iff hleast hgreatest hcount
  rw [load_eq_parse htext, ← hok]
  cases hparse : parse manifest.fileText with
  | ok found =>
    refine ⟨iff_of_true ⟨found, rfl⟩ ⟨found, rfl⟩, ?_⟩
    intro error h
    cases h
  | error fault =>
    refine ⟨iff_of_false not_exists_error_eq_ok not_exists_error_eq_ok, ?_⟩
    intro error h
    exact ⟨fault, (Except.error.inj h).symm, herror fault hparse⟩

end

/-! ## Manifests of components -/

section

variable (now : Time.Timestamp) (components : List Component)

/-- The schemas of a manifest are those of the first components. -/
theorem fits_ofComponents_iff :
    (ofComponents now components).Fits ↔ ∀ c ∈ firsts components, FitsIn schemaDepth c.schema := by
  have hentries : (ofComponents now components).components.entries =
      (firsts components).map fun c => (c.kind, .ofComponent c) :=
    (coherent_foldl components).components_eq
  unfold Fits
  rw [hentries, List.forall_mem_map]
  rfl

theorem totalComponents_ofComponents_le :
    (ofComponents now components).totalComponents ≤ components.length := by
  show (components.foldl Index.add {}).components.entries.length ≤ _
  rw [(coherent_foldl components).components_eq, List.length_map]
  exact length_firsts_le components

end

/-- **A written manifest of components is loaded** if and only if its file did not block the path it
was written to, and the schemas of the first components fit into what the reader takes. It is
refused for no other reasons. -/
theorem load_ofComponents_iff {now : Time.Timestamp} {components : List Component}
    {system written : System} {path : Path} (hleast : 0 ≤ now.date.year)
    (hgreatest : now.date.year ≤ 9999) (hcount : components.length < 2 ^ 64)
    (hwrite : (ofComponents now components).write system path = .ok written) :
    ((∃ found, load written path = .ok found) ↔
      written.isPresent path = true ∧ ∀ c ∈ firsts components, FitsIn schemaDepth c.schema) ∧
    ∀ error, load written path = .error error →
      error = .inaccessible path .notDirectory ∨
        ∃ fault, error = .invalid fault ∧ Unreadable fault.cause := by
  have hread := System.readText_replaceFile (write_eq_ok_iff.mp hwrite)
  rw [join_pieces] at hread
  by_cases hpresent : written.isPresent path = true
  · -- what is loaded is the text that was written
    rw [if_pos hpresent] at hread
    have htotal : (ofComponents now components).totalComponents < 2 ^ 64 := by
      have hle := totalComponents_ofComponents_le now components
      omega
    obtain ⟨hok, herror⟩ := load_iff_fits hleast hgreatest htotal hread
    rw [← fits_ofComponents_iff now, and_iff_right hpresent]
    exact ⟨hok, fun error h => .inr (herror error h)⟩
  · -- the path leads through the file, and nowhere
    rw [if_neg hpresent] at hread
    have hload : load written path = .error (.inaccessible path .notDirectory) := by
      rw [load, hread]
      rfl
    rw [hload]
    refine ⟨iff_of_false not_exists_error_eq_ok fun h => hpresent h.1, ?_⟩
    intro error h
    exact .inl (Except.error.inj h).symm

end Manifest

/-! ### A component at the limit -/

/-- Lists in each other. -/
def nestedList : Nat → Json
  | 0 => .array []
  | d + 1 => .array [nestedList d]

theorem fitsIn_nestedList_iff {d levels : Nat} : FitsIn d (nestedList levels) ↔ levels < d := by
  induction levels generalizing d with
  | zero =>
    cases d with
    | zero => exact iff_of_false not_fitsIn_zero_array (by omega)
    | succ d => exact iff_of_true (fitsIn_array_iff.mpr (by simp)) (by omega)
  | succ levels ih =>
    cases d with
    | zero => exact iff_of_false not_fitsIn_zero_array (by omega)
    | succ d =>
      rw [nestedList, fitsIn_array_iff, Nat.succ_lt_succ_iff, ← ih]
      simp

/-- A component that declares such a schema. -/
def nestedCard (levels : Nat) : Component where
  kind := "card"
  schema := nestedList levels
  category := defaultCategory
  file := "card.tsx"

theorem readText_registryDrive (text : String) :
    (registryDrive [("units.json", .file text.toUTF8)]).readText "/registry/units.json" =
      .ok text := by
  have hsegments : Path.segments "/registry/units.json" = ["", "registry"] ++ ["units.json"] := rfl
  have hresolve := System.resolve_of_directoryOf hsegments (by decide)
    (resolve_registryDrive [("units.json", .file text.toUTF8)]) rfl rfl
  exact System.readText_eq_ok_iff.mpr ⟨_, _, hresolve, rfl, System.decode_toUTF8 text⟩

/-- The manifest of such a component, on its own. -/
theorem fits_nestedCard_iff {levels : Nat} :
    (Manifest.ofComponents .epoch [nestedCard levels]).Fits ↔ levels < schemaDepth := by
  have hfirsts : firsts [nestedCard levels] = [nestedCard levels] :=
    firsts_of_nodup (List.nodup_singleton _)
  rw [Manifest.fits_ofComponents_iff, hfirsts, List.forall_mem_singleton]
  exact fitsIn_nestedList_iff

/-- At the greatest depth that is left for it the schema is loaded again. -/
theorem load_write_nestedCard :
    ∃ written, (Manifest.ofComponents .epoch [nestedCard 123]).write (registryDrive [])
        "/registry/units.json" = .ok written ∧
      ∃ found, Manifest.load written "/registry/units.json" = .ok found := by
  have hwrite := write_registryDrive (.ofComponents .epoch [nestedCard 123]) [] (by simp)
  obtain ⟨hload, -⟩ := Manifest.load_ofComponents_iff (by decide) (by decide) (by decide) hwrite
  have hfits := fits_nestedCard_iff.mpr (by decide : 123 < schemaDepth)
  refine ⟨_, hwrite, hload.mpr ⟨?_, (Manifest.fits_ofComponents_iff _ _).mp hfits⟩⟩
  exact System.isPresent_of_readText (readText_registryDrive _)

/-- One level deeper the schema is written, and the file found, but refused. -/
theorem not_load_write_nestedCard :
    ∃ written, (Manifest.ofComponents .epoch [nestedCard 124]).write (registryDrive [])
        "/registry/units.json" = .ok written ∧
      written.isPresent "/registry/units.json" = true ∧
      ¬∃ found, Manifest.load written "/registry/units.json" = .ok found := by
  have hwrite := write_registryDrive (.ofComponents .epoch [nestedCard 124]) [] (by simp)
  have hread := readText_registryDrive (Manifest.ofComponents .epoch [nestedCard 124]).fileText
  obtain ⟨hload, -⟩ := Manifest.load_iff_fits (by decide) (by decide) (by decide) hread
  refine ⟨_, hwrite, System.isPresent_of_readText hread, fun hfound => ?_⟩
  exact absurd (fits_nestedCard_iff.mp (hload.mp hfound)) (by decide)

end Mosaic.Registry
