import Mosaic.Composition.Event
import Mosaic.Text.Quoted

/-!
# Event sinks

A sink is where units send their events. Connected sinks lead to a consumer, and
all copies of one lead to the same consumer; what is sent to a disconnected sink
is lost.

* `EventSink`: a handle, identified by the consumer it leads to.
* `Switchboard`: a growing collection of consumers and handles, and what each
  consumer has heard.
-/

namespace Mosaic.Composition

/-- A handle through which events are sent. -/
inductive EventSink
  | connected (consumer : Nat)
  | disconnected
  deriving DecidableEq, Repr

/-- A sink leads nowhere unless it is given a consumer. -/
instance : Inhabited EventSink := ⟨.disconnected⟩

namespace EventSink

def isConnected : EventSink → Bool
  | connected _ => true
  | disconnected => false

/-- Whether two handles lead to the same consumer, or both nowhere. -/
def sameChannel (a b : EventSink) : Bool := a = b

/-- The consumer that hears what is sent, paired with it. -/
def deliver : EventSink → Event → List (Nat × Event)
  | connected consumer, event => [(consumer, event)]
  | disconnected, _ => []

def describe (sink : EventSink) : String :=
  let state := if sink.isConnected then "connected" else "disconnected"
  s!"EventSink({Text.quoted state})"

end EventSink

/-- Consumers, handles and the history of what was heard, oldest first. Consumers
and handles are numbered in the order of their creation. -/
structure Switchboard where
  consumers : Nat := 0
  sinks : List EventSink := []
  heard : List (Nat × Event) := []

namespace Switchboard

/-- One step in the life of a collection of handles. -/
inductive Step
  | connect
  | disconnected
  | byDefault
  | copy (sink : Nat)
  | emit (sink : Nat) (event : Event)

/-- Handles that do not exist behave like disconnected ones. -/
def sink (board : Switchboard) (index : Nat) : EventSink :=
  board.sinks.getD index .disconnected

def run (board : Switchboard) : Step → Switchboard
  | .connect =>
    { board with
      consumers := board.consumers + 1
      sinks := board.sinks ++ [.connected board.consumers] }
  | .disconnected => { board with sinks := board.sinks ++ [.disconnected] }
  | .byDefault => { board with sinks := board.sinks ++ [default] }
  | .copy index => { board with sinks := board.sinks ++ [board.sink index] }
  | .emit index event => { board with heard := board.heard ++ (board.sink index).deliver event }

/-- What one consumer has heard. -/
def heardBy (board : Switchboard) (consumer : Nat) : List Event :=
  (board.heard.filter (·.1 = consumer)).map Prod.snd

end Switchboard

end Mosaic.Composition
