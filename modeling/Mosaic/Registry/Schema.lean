import Mosaic.Registry.Manifest

/-!
# Component schemas

Of a declared schema only the names of the required fields are binding; the rest
is carried as hints. Reading never fails: whatever is not of the expected kind
is passed over, entry by entry.

* `Schema.ofJson`, `FieldHint.ofJson`: the schema that a JSON value declares.
* `SchemaStore`: the schemas of a registry, by component type.
-/

namespace Mosaic.Registry

/-- What a schema says about one field. -/
@[ext] structure FieldHint where
  kind : Option String := none
  isOptional : Bool := false
  /-- The texts the field may take, if they are listed. -/
  values : List String := []
  items : Option Json := none

structure Schema where
  required : List String := []
  properties : Dict FieldHint := ∅

namespace FieldHint

def ofJson (value : Json) : FieldHint :=
  match value with
  | .object _ =>
    { kind := (value.get? "type").bind Json.asString?
      isOptional := ((value.get? "optional").bind Json.asBool?).getD false
      values := (((value.get? "enum").bind Json.asArray?).map Json.stringsIn).getD []
      items := value.get? "items" }
  | _ => {}

end FieldHint

namespace Schema

def ofJson (value : Json) : Schema where
  required := (((value.get? "required").bind Json.asArray?).map Json.stringsIn).getD []
  properties :=
    (((value.get? "properties").bind Json.asObject?).map fun members =>
      .ofList (members.map fun (name, hint) => (name, .ofJson hint))).getD ∅

/-- The first required field that is not present. -/
def firstMissing (schema : Schema) (isPresent : String → Bool) : Option String :=
  schema.required.find? fun name => !isPresent name

/-- The fields worth mentioning: those among the first `limit` that are not optional. -/
def keyProperties (schema : Schema) (limit : Nat) : List String :=
  ((schema.properties.entries.take limit).filter fun (_, hint) => !hint.isOptional).map Prod.fst

end Schema

/-- The schemas of a registry, by component type. -/
structure SchemaStore where
  schemas : Dict Schema := ∅

namespace SchemaStore

instance : EmptyCollection SchemaStore := ⟨{}⟩

def ofList (pairs : List (String × Schema)) : SchemaStore := ⟨.ofList pairs⟩

def ofManifest (manifest : Manifest) : SchemaStore :=
  ofList (manifest.components.entries.map fun (kind, entry) => (kind, .ofJson entry.schema))

/-- The schemas of components, the first of each type. -/
def ofComponents (components : List Component) : SchemaStore :=
  ⟨components.foldl (fun d c => d.insertIfNew c.kind (.ofJson c.schema)) ∅⟩

def get? (store : SchemaStore) (kind : String) : Option Schema := store.schemas.get? kind

def contains (store : SchemaStore) (kind : String) : Bool := store.schemas.contains kind

def size (store : SchemaStore) : Nat := store.schemas.size

def isEmpty (store : SchemaStore) : Bool := store.schemas.isEmpty

/-- The types that have a schema, in increasing order. -/
def types (store : SchemaStore) : List String := store.schemas.sortedKeys

end SchemaStore

end Mosaic.Registry
