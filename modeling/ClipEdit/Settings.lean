import ClipEdit.Fault

/-!
# Settings

The tunables of the editor: how close two boundaries may come, how near the pointer must be to a
keyframe, whose speed survives a merge, and how far and how fast the preview zooms. A new timeline
or viewport takes over the settings of the moment and keeps them.

`Settings.validate` repairs settings that cannot be used, each one on its own terms; whatever is
already usable is left alone. Settings that come from outside always pass through it.
-/

namespace ClipEdit

open Scalar

/-- Whose speed a segment has that was merged from two. -/
inductive MergePolicy where
  | keepLeft
  | keepRight
deriving Repr, DecidableEq

/-- The tunables of the editor. -/
structure Settings (α : Type) where
  /-- Two boundaries closer than this many seconds are the same boundary. -/
  boundaryEpsilon : α
  /-- The reach of the pointer around a keyframe, as a fraction of the width of the track. -/
  hitRadiusFraction : α
  mergePolicy : MergePolicy
  /-- The smallest zoom factor. -/
  minZoom : α
  /-- The largest zoom factor. -/
  maxZoom : α
  /-- The zoom factor of one notch of the wheel. -/
  zoomStep : α
deriving Repr, DecidableEq

namespace Settings

variable {α : Type} [Scalar α]

/-- The settings of a fresh editor. -/
def default : Settings α where
  boundaryEpsilon := 0.01
  hitRadiusFraction := 0.03
  mergePolicy := .keepRight
  minZoom := 0.1
  maxZoom := 10.0
  zoomStep := 1.1

/-- `x` if it is finite, and `fallback` otherwise, moved into the range from `lo` to `hi`. -/
def repair (x fallback lo hi : α) : α :=
  clamp (if isFinite x then x else fallback) lo hi

/-- Usable settings. The limits of the zoom are repaired in order: first the lower one, which must
be positive, then the upper one, which must not lie below it. -/
def validate (s : Settings α) : Settings α :=
  let d : Settings α := default
  let minZoom := if isFinite s.minZoom ∧ ¬ s.minZoom ≤ 0 then s.minZoom else d.minZoom
  { boundaryEpsilon := repair s.boundaryEpsilon d.boundaryEpsilon 0.001 1.0
    hitRadiusFraction := repair s.hitRadiusFraction d.hitRadiusFraction 0.001 0.5
    mergePolicy := s.mergePolicy
    minZoom
    maxZoom :=
      if isFinite s.maxZoom ∧ ¬ s.maxZoom < minZoom then s.maxZoom else atLeast d.maxZoom minZoom
    zoomStep := if isFinite s.zoomStep ∧ ¬ s.zoomStep ≤ 1.0 then s.zoomStep else d.zoomStep }

end Settings

end ClipEdit
