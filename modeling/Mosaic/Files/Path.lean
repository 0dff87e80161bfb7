import Mosaic.Text.Lines

/-!
# Paths

A path is a text with slashes between its segments. Its parts are what the segments
stand for: empty segments and inner single dots stand for nothing.

* `Path.segments`, `Path.parts`: the pieces of a path.
* `Path.join`, `Path.parent?`, `Path.fileName?`, `Path.extension?`.
* `Path.relativeTo`: a path below another one, seen from there.
-/

namespace Mosaic.Files

abbrev Path := String

namespace Path

/-- The texts between the slashes of a path; there is always one. -/
def segments (path : Path) : List String := (Text.pieces '/' path.toList).map String.ofList

def ofSegments (segments : List String) : Path := "/".intercalate segments

def isAbsolute (path : Path) : Bool := path.toList.head? == some '/'

/-- What a segment stands for. -/
inductive Part
  | root
  | current
  | parent
  | name (text : String)
  deriving DecidableEq, Repr

/-- What a segment stands for that is not the first one. -/
def laterPart? (segment : String) : Option Part :=
  if segment = "" ∨ segment = "." then none
  else if segment = ".." then some .parent
  else some (.name segment)

/-- What the first segment stands for; an empty one before a slash is the root. -/
def firstPart? (segment : String) (isOnly : Bool) : Option Part :=
  if segment = "" then if isOnly then none else some .root
  else if segment = "." then some .current
  else laterPart? segment

def parts (path : Path) : List Part :=
  match path.segments with
  | [] => []
  | first :: rest => (firstPart? first rest.isEmpty).toList ++ rest.filterMap laterPart?

/-- The path of `second` from the place of `first`. -/
def join (first second : Path) : Path :=
  if second.isAbsolute ∨ first = "" then second
  else if first.toList.getLast? = some '/' then first ++ second
  else first ++ "/" ++ second

def fileName? (path : Path) : Option String :=
  match path.parts.getLast? with
  | some (.name text) => some text
  | _ => none

/-- Segments without those at the end that stand for nothing. -/
def trimEnd (segments : List String) : List String :=
  (segments.reverse.dropWhile fun s => (laterPart? s).isNone).reverse

/-- The path without its last part. The root has no parent, nor has an empty path. -/
def parent? (path : Path) : Option Path :=
  match path.segments with
  | [] => none
  | first :: rest =>
    match trimEnd rest with
    | [] =>
      match firstPart? first rest.isEmpty with
      | none | some .root => none
      | some _ => some ""
    | kept =>
      match trimEnd kept.dropLast with
      | [] => some (if first = "" then "/" else first)
      | above => some (ofSegments (first :: above))

/-- What follows the last dot of the file name, unless that begins it. -/
def extension? (path : Path) : Option String := do
  let name := (← path.fileName?).toList
  let reversed := name.reverse
  let stem := (reversed.dropWhile (· ≠ '.')).drop 1
  if stem.isEmpty then none
  else some (String.ofList (reversed.takeWhile (· ≠ '.')).reverse)

/-- The segments after those that make up the given parts. -/
def dropParts : List Part → List String → Option (List String)
  | [], segments => some segments
  | _ :: _, [] => none
  | part :: parts, segment :: segments =>
    match laterPart? segment with
    | none => dropParts (part :: parts) segments
    | some p => if p = part then dropParts parts segments else none

/-- The path seen from `base`, if it is `base` itself or lies below it. -/
def below? (base path : Path) : Option Path :=
  match base.parts, path.segments with
  | [], first :: rest => some (ofSegments (first :: trimEnd rest))
  | part :: parts, first :: rest => do
    let start := firstPart? first rest.isEmpty
    if start ≠ some part then none
    let left ← dropParts parts rest
    some (ofSegments (trimEnd (left.dropWhile fun s => (laterPart? s).isNone)))
  | _, [] => none

/-- The path seen from `base`; a path elsewhere stays as it is. -/
def relativeTo (path base : Path) : Path := (base.below? path).getD path

end Path

end Mosaic.Files
