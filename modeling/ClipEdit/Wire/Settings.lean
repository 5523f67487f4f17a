import ClipEdit.Text.Quoted
import ClipEdit.Wire.Timeline

/-!
# Settings files

Settings as JSON. Fields that are left out have their defaults, and settings that were read are
validated before anyone sees them (`Settings.ofJson`). `Settings.ofFile` does the same for the
contents of a file, or reports why the file could not be read.
-/

namespace ClipEdit

open Json

instance : Wire (Settings Float) where
  encode s :=
    ofFields [("boundaryEpsilon", encode s.boundaryEpsilon),
      ("hitRadiusFraction", encode s.hitRadiusFraction), ("mergePolicy", encode s.mergePolicy),
      ("minZoom", encode s.minZoom), ("maxZoom", encode s.maxZoom), ("zoomStep", encode s.zoomStep)]
  decode v := do
    let d : Settings Float := Settings.default
    let r ← record ["boundaryEpsilon", "hitRadiusFraction", "mergePolicy", "minZoom", "maxZoom",
      "zoomStep"] v
    return {
      boundaryEpsilon := ← r.getD "boundaryEpsilon" d.boundaryEpsilon
      hitRadiusFraction := ← r.getD "hitRadiusFraction" d.hitRadiusFraction
      mergePolicy := ← r.getD "mergePolicy" d.mergePolicy
      minZoom := ← r.getD "minZoom" d.minZoom
      maxZoom := ← r.getD "maxZoom" d.maxZoom
      zoomStep := ← r.getD "zoomStep" d.zoomStep }

/-- Why a file could not be read. -/
inductive FileFault where
  | notFound
  | other (detail : String)
deriving Repr, DecidableEq

/-- The cause as the operating system words it. -/
def FileFault.message : FileFault → String
  | notFound => "No such file or directory (os error 2)"
  | other detail => detail

namespace Settings

/-- Validated settings from a JSON text. -/
def ofJson (s : String) : Except Fault (Settings Float) :=
  match decodeText (Settings Float) s with
  | .ok settings => .ok settings.validate
  | .error fault => .error (.settings fault.message)

/-- Validated settings from what reading the file at `path` gave. -/
def ofFile (path : String) : Except FileFault String → Except Fault (Settings Float)
  | .ok contents => ofJson contents
  | .error fault =>
      .error (.within ("failed to read editor config " ++ Text.quoted path) fault.message)

end Settings

end ClipEdit
