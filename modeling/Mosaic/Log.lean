import Mosaic.Traced

/-!
# Log events

What a run reports besides its result: a level, a message and named texts.
-/

namespace Mosaic

namespace Log

inductive Level
  | warn
  | info
  | debug
  deriving DecidableEq, Repr

structure Event where
  level : Level
  message : String
  fields : List (String × String) := []
  deriving DecidableEq, Repr

end Log

/-- A value together with the log events of the run that produced it. -/
abbrev Logged := Traced Log.Event

namespace Logged

def warn (message : String) (fields : List (String × String)) : Logged Unit :=
  Traced.record { level := .warn, message, fields }

def info (message : String) (fields : List (String × String)) : Logged Unit :=
  Traced.record { level := .info, message, fields }

def debug (message : String) (fields : List (String × String)) : Logged Unit :=
  Traced.record { level := .debug, message, fields }

end Logged

end Mosaic
