import Mosaic.Json.Form

/-!
# Callback events

What a rendered unit reports when someone interacts with it: the kind of
interaction, the component, and data of the component's choice.
-/

namespace Mosaic.Composition

inductive EventKind
  | click
  | change
  | select
  | toggle
  deriving DecidableEq, Repr

namespace EventKind

def all : List EventKind := [.click, .change, .select, .toggle]

def name : EventKind → String
  | click => "click"
  | change => "change"
  | select => "select"
  | toggle => "toggle"

/-- What the user did, as a participle. -/
def verb : EventKind → String
  | click => "clicked"
  | change => "changed"
  | select => "selected"
  | toggle => "toggled"

def form : Json.Form EventKind := .choice (all.map fun kind => (kind.name, kind))

end EventKind

@[ext] structure Event where
  kind : EventKind
  component : String
  data : Dict Json := ∅

namespace Event

/-- Sets one entry of the data. -/
def set (event : Event) (key : String) (value : Json) : Event :=
  { event with data := event.data.insert key value }

def toJson (event : Event) : Json :=
  .object [("type", .string event.kind.name), ("component", .string event.component),
    ("data", .ofDict event.data)]

structure Draft where
  kind : Option EventKind := none
  component : Option String := none
  data : Option (Dict Json) := none

def form : Json.Form Event :=
  .record {
    name := "CallbackEvent"
    fields := [
      .of "type" EventKind.form Draft.kind (fun d v => { d with kind := some v }) false,
      .of "component" .string Draft.component
        (fun d v => { d with component := some v }) false,
      .of "data" (.dict .value) Draft.data (fun d v => { d with data := some v }) true]
    start := {}
    finish draft := do
      let kind ← Json.Form.require "type" draft.kind
      let component ← Json.Form.require "component" draft.component
      return { kind, component, data := draft.data.getD ∅ } }

/-- The first text among the title, the text, the id and the label of an event that
is not empty. -/
def detail? (event : Event) : Option String :=
  ["title", "text", "id", "label"].findSome? fun key =>
    ((event.data.get? key).bind Json.asString?).filter (· ≠ "")

/-- A sentence that says what the user did. -/
def describe (event : Event) : String :=
  match event.detail? with
  | some detail => s!"User {event.kind.verb} {event.component}: {detail}"
  | none => s!"User {event.kind.verb} {event.component}"

end Event

end Mosaic.Composition
