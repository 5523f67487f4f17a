import ClipEdit.Decimal.Layout
import ClipEdit.Json.Wire

/-!
# Faults

Editing itself never fails. What can fail lies at the edges of the library: the description of a
clip, the text of an aspect ratio, a settings file, a JSON text. `Fault` names the causes and
`Fault.message` is the one place where they are put into words. `Fault.within` adds what was being
done when the fault arose.
-/

namespace ClipEdit

/-- A property of a clip that has to be a positive number. -/
inductive Measure where
  | width
  | height
  | duration
deriving Repr, DecidableEq

/-- The word for a property in a message. -/
def Measure.label : Measure → String
  | .width => "width"
  | .height => "height"
  | .duration => "duration"

/-- Why a clip cannot be loaded. -/
inductive ClipFault (α : Type) where
  /-- A property that is not a positive, finite number. -/
  | notPositive (measure : Measure) (value : α)
  /-- A timeline was asked for over a duration that is not a positive, finite number. -/
  | emptyTimeline (duration : α)
  /-- No frames per second. -/
  | noFrames
deriving Repr, DecidableEq

/-- What is wrong, in one line. -/
def ClipFault.message : ClipFault Float → String
  | .notPositive measure value =>
      measure.label ++ " must be a positive number, got " ++ Decimal.plainText value
  | .emptyTimeline duration => "duration must be positive, got " ++ Decimal.plainText duration
  | .noFrames => "framerate must be a positive integer"

/-- A fault at an edge of the library. -/
inductive Fault where
  /-- A clip whose description cannot be used. -/
  | metadata (detail : String)
  /-- A text that names no aspect ratio. -/
  | aspectRatio (text : String)
  /-- Settings that cannot be read. -/
  | settings (detail : String)
  /-- A file that cannot be read. -/
  | file (detail : String)
  /-- A JSON text that cannot be read. -/
  | json (detail : String)
  /-- Anything else. -/
  | other (message : String)
deriving Repr, DecidableEq

namespace Fault

/-- The fault in words. -/
def message : Fault → String
  | metadata detail => "Invalid video metadata: " ++ detail
  | aspectRatio text => "Invalid aspect ratio: " ++ text
  | settings detail => "Config error: " ++ detail
  | file detail => "I/O error: " ++ detail
  | json detail => "JSON error: " ++ detail
  | other message => message

/-- What was being done, followed by what went wrong. -/
def within (activity message : String) : Fault :=
  other (activity ++ ": " ++ message)

/-- The JSON form of a fault is its message. -/
def encode (f : Fault) : Json :=
  Json.text f.message

end Fault

/-- A clip fault at the edge of the library. -/
def ClipFault.fault (f : ClipFault Float) : Fault :=
  .metadata f.message

end ClipEdit
