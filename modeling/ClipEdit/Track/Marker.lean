import ClipEdit.Settings
import ClipEdit.Track.Basic

/-!
# Keyframe markers

A track is drawn as a strip with a marker at each keyframe, placed in proportion to its frame.
`nearestMarker` finds the marker under the pointer: the nearest one within reach, and of several
equally near ones the first.
-/

namespace ClipEdit

open Scalar

variable {α : Type} [Scalar α]

namespace Track

/-- Where the marker of a frame stands on a strip of the given width. -/
def markerPosition (total : Frame) (width : α) (frame : Frame) : α :=
  (frame : α) / (total : α) * width

/-- Take a marker into account: `best` is the nearest marker within reach so far, with its
distance. -/
def considerMarker (radius distance : α) (index : Nat) (best : Option (Nat × α)) :
    Option (Nat × α) :=
  if radius < distance then best
  else match best with
    | none => some (index, distance)
    | some (i, d) => if d ≤ distance then some (i, d) else some (index, distance)

/-- The nearest marker within reach among the markers numbered from `index` on. -/
def scanMarkers (radius : α) (distanceOf : Frame → α) (best : Option (Nat × α)) (index : Nat) :
    List Frame → Option (Nat × α)
  | [] => best
  | frame :: rest =>
      scanMarkers radius distanceOf
        (considerMarker radius (distanceOf frame) index best) (index + 1) rest

/-- The index of the marker under the pointer, on a strip that shows `total` frames and reaches
`fraction` of its width around each marker. -/
def nearestMarker (frames : List Frame) (pointer width : α) (total : Frame) (fraction : α) :
    Option Nat :=
  if total = 0 ∨ width ≤ 0 then none
  else
    (scanMarkers (fraction * width) (fun frame => magnitude (markerPosition total width frame - pointer))
      none 0 frames).map Prod.fst

/-- The index of the keyframe under the pointer, on a track drawn in the given width. -/
def markerAt {V : Type} (settings : Settings α) (t : Track V) (pointer width : α) : Option Nat :=
  nearestMarker t.frames pointer width t.endFrame settings.hitRadiusFraction

end Track

end ClipEdit
