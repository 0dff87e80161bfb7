import Mosaic.Proofs.Files.Replacement
import Mosaic.Proofs.Json.Form
import Mosaic.Proofs.Time.RoundTrip
import Mosaic.Registry.Storage

/-!
# Stored manifests

The written form of a manifest is read back member by member, and so is the file that it is
written to.

* `Manifest.Storable`: the manifests whose text says all about them.
* `Entry.readsBack_form`, `Manifest.readsBack_form`: the written forms.
* `Manifest.parse_fileText`: the text of a manifest file.
* `Manifest.load_write`: the file.
-/

namespace Mosaic.Registry

open Files Json Json.Form

/-! ## Entries -/

/-- An entry is read as what its schema is read as, all else being as it was. -/
theorem Entry.readsBack_form {d : Nat} {entry : Entry} {found : Json}
    (hschema : Form.value.ReadsBack d entry.schema found) :
    Entry.form.ReadsBack (d + 1) entry.toJson { entry with schema := found } := by
  -- members are read one by one into a draft, which is complete behind the last of them
  let draft : Draft :=
    { description := entry.description, schema := found, category := entry.category
      file := entry.file, source := entry.source }
  -- the members fill in this draft in the order in which they are written
  refine readsBack_record draft ?_ rfl
  refine .of (readsBack_text _ entry.description) rfl rfl ?_
  refine .of hschema rfl rfl ?_
  refine .of (readsBack_text _ entry.category) rfl rfl ?_
  refine .of (readsBack_text _ entry.file) rfl rfl ?_
  refine .of (readsBack_text _ entry.source) rfl rfl ?_
  exact .nil _

/-! ## Manifests -/

/-- A list of texts is read back. -/
theorem readsBack_texts {d : Nat} (texts : List String) :
    (Form.list Form.string).ReadsBack (d + 1) (.array (texts.map .string)) texts :=
  readsBack_list fun text _ => readsBack_text _ text

/-- A time in the years that are written with four digits is read back. -/
theorem readsBack_time {d : Nat} {t : Time.Timestamp} (hleast : 0 ≤ t.date.year)
    (hgreatest : t.date.year ≤ 9999) :
    Form.time.ReadsBack d (.string (String.ofList t.render)) t := by
  refine readsBack_scalar (.string _) (by simp) (by simp) ?_
  show (Time.Timestamp.parse (String.ofList t.render).toList).mapError _ = _
  rw [String.toList_ofList, Time.Timestamp.parse_render hleast hgreatest]
  rfl

/-- The depth that is left for a schema in a manifest: the manifest, its components and the entry
are open around it. -/
def schemaDepth : Nat := 124

namespace Manifest

/-- A manifest of a year with four digits and with a count of 64 bits is read as what its
components are read as. -/
theorem readsBack_of_components {manifest : Manifest} {found : Dict Entry}
    (hleast : 0 ≤ manifest.generatedAt.date.year) (hgreatest : manifest.generatedAt.date.year ≤ 9999)
    (hcount : manifest.totalComponents < 2 ^ 64)
    (hcomponents : (Form.dict Entry.form).ReadsBack (schemaDepth + 2)
      (.ofDict (manifest.components.map fun _ entry => entry.toJson)) found) :
    form.ReadsBack nestingLimit manifest.toJson { manifest with components := found } := by
  have hsources : (Form.dict (Form.list Form.string)).ReadsBack (schemaDepth + 2)
      (.ofDict (manifest.sources.map fun _ types => .array (types.map .string)))
      manifest.sources :=
    readsBack_dict fun bucket _ => readsBack_texts bucket.2
  let draft : Draft :=
    { generatedAt := manifest.generatedAt, version := manifest.version
      totalComponents := manifest.totalComponents, components := found
      sources := manifest.sources }
  -- field by field, in the order in which they are written
  refine readsBack_record draft ?_ rfl
  refine .of (readsBack_time hleast hgreatest) rfl rfl ?_
  refine .of (readsBack_text _ manifest.version) rfl rfl ?_
  refine .of (readsBack_count hcount) rfl rfl ?_
  refine .of hcomponents rfl rfl ?_
  refine .of hsources rfl rfl ?_
  exact .nil _

/-- The manifests that are written without loss: of a year with four digits, with a count of 64
bits, and with schemas of integers of 64 bits that leave room for what is around them. -/
structure Storable (manifest : Manifest) : Prop where
  least : 0 ≤ manifest.generatedAt.date.year
  greatest : manifest.generatedAt.date.year ≤ 9999
  count : manifest.totalComponents < 2 ^ 64
  integral : ∀ entry ∈ manifest.components.entries, Integral IsWord entry.2.schema
  shallow : ∀ entry ∈ manifest.components.entries, entry.2.schema.depth ≤ schemaDepth

theorem readsBack_form {manifest : Manifest} (h : manifest.Storable) :
    form.ReadsBack nestingLimit manifest.toJson manifest := by
  refine readsBack_of_components h.least h.greatest h.count (readsBack_dict fun entry hentry => ?_)
  exact Entry.readsBack_form (readsBack_value (h.integral entry hentry) (h.shallow entry hentry))

/-- The text of a manifest file, as a spelling of its JSON. -/
theorem fileText_eq (manifest : Manifest) : manifest.fileText =
    String.ofList (Spacing.indented.spell 0 manifest.toJson ++ ['\n']) := by
  rw [fileText, pretty, ← Spacing.spell_indented, String.ofList_append]

theorem isBlank_of_mem_newline {c : Char} (h : c ∈ ['\n']) : isBlank c = true := by
  rw [List.mem_singleton.mp h]
  rfl

/-- **The text of a manifest file** is read as the manifest. -/
theorem parse_fileText {manifest : Manifest} (h : manifest.Storable) :
    parse manifest.fileText = .ok manifest := by
  rw [parse, fileText_eq]
  exact parse_of_readsBack (readsBack_form h) Spacing.indented ['\n'] fun _ => isBlank_of_mem_newline

/-! ## Files -/

theorem join_pieces (manifest : Manifest) : String.join manifest.pieces = manifest.fileText := by
  show "" ++ manifest.toJson.pretty ++ "\n" = manifest.fileText
  rw [String.empty_append, fileText]

theorem write_eq_ok_iff {manifest : Manifest} {system written : System} {path : Path} :
    manifest.write system path = .ok written ↔
      system.replaceFile path manifest.pieces = .ok written := by
  rw [write]
  cases system.replaceFile path manifest.pieces with
  | error fault => exact iff_of_false (fun h => by cases h) (fun h => by cases h)
  | ok after =>
    show Except.ok after = Except.ok written ↔ _
    rw [Except.ok.injEq, Except.ok.injEq]

theorem load_eq_parse {system : System} {path : Path} {text : String}
    (htext : system.readText path = .ok text) :
    load system path = (parse text).mapError .invalid := by
  simp only [load, htext, Except.mapError, bind, Except.bind]

/-- A file with the text of a manifest is loaded as the manifest. -/
theorem load_of_readText {manifest : Manifest} (h : manifest.Storable) {system : System}
    {path : Path} (htext : system.readText path = .ok manifest.fileText) :
    load system path = .ok manifest := by
  rw [load_eq_parse htext, parse_fileText h]
  rfl

/-- **A written manifest is loaded again**, equal in every field, through every path that leads to
its file: the last name of the path it was written to, in the directory of that path. The path
itself leads to it, unless the file took the place of a link that the path passes. -/
theorem load_write {manifest : Manifest} (h : manifest.Storable) {system written : System}
    {path : Path} (hwrite : manifest.write system path = .ok written) :
    ∃ directory name,
      system.resolve (System.directoryOf path) true = .ok directory ∧
      system.targetName path = .ok name ∧
      (∀ other, written.resolve other true = .ok (directory ++ [name]) →
        load written other = .ok manifest) ∧
      ((∀ target, system.tree.at? (directory ++ [name]) = some (.link target) →
        written.resolve (System.directoryOf path) true = .ok directory) →
        load written path = .ok manifest) := by
  obtain ⟨directory, name, hdirectory, hname, hread, hpath⟩ :=
    System.readText_of_replaceFile (write_eq_ok_iff.mp hwrite)
  -- the pieces of the file make up its text
  rw [join_pieces] at hread
  have hload : ∀ other, written.resolve other true = .ok (directory ++ [name]) →
      load written other = .ok manifest :=
    fun other hother => load_of_readText h (hread other hother)
  exact ⟨directory, name, hdirectory, hname, hload, fun hlink => hload path (hpath hlink)⟩

end Manifest

/-! ## A manifest at the limits -/

/-- A manifest of a leap second, with texts and numbers at the limits. -/
def leapManifest : Manifest where
  generatedAt := .ofFields ⟨0, 2, 29, by decide⟩ 23 59 60 120
  version := "1.0\x00\t\"é"
  totalComponents := 2 ^ 64 - 1
  components.entries := [("card", {
    description := ""
    schema := .object [("b", .array []), ("a", .number (.int (-2 ^ 63))), ("", .object [])]
    category := "general", file := "card.tsx", source := "\\" })]
  sources.entries := [("\\", ["card"]), ("empty", [])]

theorem storable_leapManifest : leapManifest.Storable where
  least := by decide
  greatest := by decide
  count := by decide
  integral := by
    have hschema : Integral IsWord
        (.object [("b", .array []), ("a", .number (.int (-2 ^ 63))), ("", .object [])]) := by
      refine .object (by decide) ?_
      simp only [List.forall_mem_cons]
      exact ⟨.array (by simp), .number (by decide), .object (by decide) (by simp), by simp⟩
    intro entry hentry
    rw [List.mem_singleton.mp hentry]
    exact hschema
  shallow := by
    intro entry hentry
    rw [List.mem_singleton.mp hentry]
    decide

/-- A drive with one directory. -/
def registryDrive (entries : Entries) : System where
  tree := .directory [("registry", .directory entries)]

theorem resolve_registryDrive (entries : Entries) :
    (registryDrive entries).resolve "/registry" true = .ok ["registry"] := by
  have hsegments : Path.segments "/registry" = ["", "registry"] := rfl
  refine System.resolve_of_leads (by decide) ?_
  rw [hsegments]
  exact .blank (.inl rfl) (.directory (by decide) rfl (.here _ _))

theorem write_registryDrive (manifest : Manifest) (entries : Entries)
    (h : ∀ inside, entries.lookup "units.json" ≠ some (.directory inside)) :
    manifest.write (registryDrive entries) "/registry/units.json" = .ok (registryDrive
      (putEntry "units.json" (.file manifest.fileText.toUTF8) entries)) := by
  have hname : (registryDrive entries).targetName "/registry/units.json" = .ok "units.json" := rfl
  rw [Manifest.write_eq_ok_iff, ← Manifest.join_pieces]
  exact System.replaceFile_eq_ok (resolve_registryDrive entries) rfl hname h

/-- A manifest that takes the place of a link, which leads to the directory of the manifest, is
loaded again. -/
theorem load_write_leapManifest :
    leapManifest.Storable ∧ ∃ written,
      leapManifest.write (registryDrive [("units.json", .link "/registry")])
        "/registry/units.json" = .ok written ∧
      Manifest.load written "/registry/units.json" = .ok leapManifest := by
  have hresolve := resolve_registryDrive [("units.json", .link "/registry")]
  have hdirectory : System.directoryOf "/registry/units.json" = "/registry" := rfl
  have hwrite := write_registryDrive leapManifest [("units.json", .link "/registry")] (by simp)
  refine ⟨storable_leapManifest, _, hwrite, ?_⟩
  obtain ⟨directory, name, hfound, -, -, hload⟩ :=
    Manifest.load_write storable_leapManifest hwrite
  refine hload fun _ _ => ?_
  rw [hdirectory, hresolve] at hfound
  rw [hdirectory, ← Except.ok.inj hfound]
  exact resolve_registryDrive _

end Mosaic.Registry
