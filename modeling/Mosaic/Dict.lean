/-!
# Ordered dictionaries

A dictionary remembers the order in which its keys were first inserted. Writing
to a key that is present replaces the value and leaves the key where it stands;
writing to a new key appends it.

* `putEntry`: insertion on a plain list of entries, the form in which JSON
  objects keep their members.
* `Dict`: a list of entries whose keys are distinct, with the usual operations.
-/

namespace Mosaic

/-- Replaces the value of the first entry for `key`, or appends a new entry. -/
def putEntry {α : Type u} (key : String) (value : α) : List (String × α) → List (String × α)
  | [] => [(key, value)]
  | (k, v) :: rest => if k = key then (key, value) :: rest else (k, v) :: putEntry key value rest

/-- A new key comes last, and a known one keeps its place. -/
theorem keys_putEntry {α : Type u} (key : String) (value : α) (entries : List (String × α)) :
    (putEntry key value entries).map Prod.fst =
      if key ∈ entries.map Prod.fst then entries.map Prod.fst
      else entries.map Prod.fst ++ [key] := by
  induction entries with
  | nil => simp [putEntry]
  | cons entry rest ih =>
    obtain ⟨k, v⟩ := entry
    by_cases h : k = key
    · subst h; simp [putEntry]
    · have h' : ¬ key = k := fun e => h e.symm
      simp only [putEntry, if_neg h, List.map_cons, ih, List.mem_cons, h', false_or]
      split <;> simp

/-- Putting an entry keeps the keys distinct. -/
theorem nodup_keys_putEntry {α : Type u} {key : String} {value : α}
    {entries : List (String × α)} (distinct : (entries.map Prod.fst).Nodup) :
    ((putEntry key value entries).map Prod.fst).Nodup := by
  rw [keys_putEntry]
  split
  · exact distinct
  · next h =>
    rw [List.nodup_append]
    refine ⟨distinct, by simp, ?_⟩
    intro a ha b hb
    simp only [List.mem_singleton] at hb
    subst hb
    exact fun e => h (e ▸ ha)

/-- A finite map from names to values that keeps the order of first insertion. -/
structure Dict (α : Type u) where
  entries : List (String × α)
  distinct : (entries.map Prod.fst).Nodup := by simp

namespace Dict

variable {α : Type u} {β : Type v}

/-- Dictionaries are told apart by their entries alone. -/
@[ext] theorem ext {a b : Dict α} (h : a.entries = b.entries) : a = b := by
  cases a; cases b; cases h; rfl

/-- The dictionary without entries. -/
def empty : Dict α := { entries := [] }

instance : EmptyCollection (Dict α) := ⟨empty⟩
instance : Inhabited (Dict α) := ⟨empty⟩

/-- The keys, in the order of insertion. -/
def keys (d : Dict α) : List String := d.entries.map Prod.fst

/-- The values, in the order in which their keys were inserted. -/
def values (d : Dict α) : List α := d.entries.map Prod.snd

/-- The number of keys. -/
def size (d : Dict α) : Nat := d.entries.length

/-- Whether there are no entries. -/
def isEmpty (d : Dict α) : Bool := d.entries.isEmpty

/-- The value of a key, if it has one. -/
def get? (d : Dict α) (key : String) : Option α := d.entries.lookup key

/-- Whether a key has a value. -/
def contains (d : Dict α) (key : String) : Bool := (d.get? key).isSome

/-- Sets the value of a key, at its old position if it has one and else at the end. -/
def insert (d : Dict α) (key : String) (value : α) : Dict α where
  entries := putEntry key value d.entries
  distinct := nodup_keys_putEntry d.distinct

/-- Sets the value of a key only if the key is new. -/
def insertIfNew (d : Dict α) (key : String) (value : α) : Dict α :=
  if d.contains key then d else d.insert key value

/-- Inserts the pairs of a list one after the other: the first of equal keys
gives the position and the last one the value. -/
def ofList (pairs : List (String × α)) : Dict α :=
  pairs.foldl (fun d p => d.insert p.1 p.2) empty

/-- The entries of `a`, overridden and extended by those of `b`. -/
def merge (a b : Dict α) : Dict α :=
  b.entries.foldl (fun d p => d.insert p.1 p.2) a

/-- The dictionary with the same keys and each value replaced, which may depend on its key. -/
def map (f : String → α → β) (d : Dict α) : Dict β where
  entries := d.entries.map fun (k, v) => (k, f k v)
  distinct := by simpa [List.map_map, Function.comp_def] using d.distinct

/-- The keys in increasing order of code points. -/
def sortedKeys (d : Dict α) : List String := d.keys.mergeSort

end Dict

end Mosaic
