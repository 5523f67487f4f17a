import ClipEdit.Overlay.Crop
import ClipEdit.Settings

/-!
# Viewports

How the video lies in the preview. At zoom `1` the whole frame fits the container and sits in its
middle; the zoom scales it from there and the pan shifts it. Every point of the video plane has one
place on the screen (`toScreen`) and the other way round (`toVideo`).

`zoomAt` zooms about an anchor: the point of the video under the anchor stays under it, also when
the limits of the zoom cut the factor short.
-/

namespace ClipEdit

open Scalar

/-- A video in a container, zoomed and shifted. The limits of the zoom are those of the settings at
the time the viewport was made. -/
structure Viewport (α : Type) where
  video : Size .video α
  container : Size .screen α
  zoom : α
  pan : Point .screen α
  minZoom : α
  maxZoom : α
  zoomStep : α
deriving Repr, DecidableEq

namespace Viewport

variable {α : Type} [Scalar α]

/-- The whole video in the middle of a container. -/
def fit (settings : Settings α) (video : Size .video α) (container : Size .screen α) :
    Viewport α where
  video
  container
  zoom := 1.0
  pan := .zero
  minZoom := settings.minZoom
  maxZoom := settings.maxZoom
  zoomStep := settings.zoomStep

/-- Screen pixels per source pixel at zoom `1`: the larger side of the video decides. -/
def fitScale (v : Viewport α) : α :=
  atMost (v.container.width / v.video.width) (v.container.height / v.video.height)

/-- Screen pixels per source pixel. -/
def scale (v : Viewport α) : α := v.fitScale * v.zoom

/-- Where the top left corner of the video would be at a scale, were it not for the pan. -/
def centeredOrigin (v : Viewport α) (scale : α) : Point .screen α :=
  { x := (v.container.width - v.video.width * scale) / 2.0
    y := (v.container.height - v.video.height * scale) / 2.0 }

/-- Where the top left corner of the video is. -/
def origin (v : Viewport α) : Point .screen α := v.centeredOrigin v.scale + v.pan

/-- The place of a point of the video on the screen. -/
def toScreen (v : Viewport α) (p : Point .video α) : Point .screen α :=
  ⟨v.origin.x + p.x * v.scale, v.origin.y + p.y * v.scale⟩

/-- The point of the video at a place on the screen. -/
def toVideo (v : Viewport α) (p : Point .screen α) : Point .video α :=
  ⟨(p.x - v.origin.x) / v.scale, (p.y - v.origin.y) / v.scale⟩

/-- A distance on the screen as a distance in the video; the pan does not matter for it. -/
def deltaToVideo (v : Viewport α) (d : Point .screen α) : Point .video α :=
  ⟨d.x / v.scale, d.y / v.scale⟩

/-- The place of a crop on the screen. -/
def cropToScreen (v : Viewport α) (c : Crop α) : Box .screen α :=
  ⟨v.toScreen ⟨c.x, c.y⟩, ⟨c.width * v.scale, c.height * v.scale⟩⟩

/-- Zoom by a factor about an anchor. A factor that is not positive and finite changes nothing. -/
def zoomAt (v : Viewport α) (anchor : Point .screen α) (factor : α) : Viewport α :=
  if !isFinite factor || factor ≤ 0 then v
  else
    let anchored := v.toVideo anchor
    let zoomed := { v with zoom := clamp (v.zoom * factor) v.minZoom v.maxZoom }
    let scale := zoomed.scale
    let origin := zoomed.centeredOrigin scale
    { zoomed with
      pan := ⟨anchor.x - origin.x - anchored.x * scale, anchor.y - origin.y - anchored.y * scale⟩ }

/-- Zoom by whole notches of the wheel, inwards when their number is positive. -/
def wheel (v : Viewport α) (anchor : Point .screen α) (notches : Int) : Viewport α :=
  v.zoomAt anchor (power v.zoomStep notches)

/-- Shift the video by a distance. -/
def panBy (v : Viewport α) (d : Point .screen α) : Viewport α := { v with pan := v.pan + d }

/-- Shift the video to a pan. -/
def setPan (v : Viewport α) (pan : Point .screen α) : Viewport α := { v with pan }

/-- Back to the whole video in the middle of the container. -/
def reset (v : Viewport α) : Viewport α := { v with zoom := 1.0, pan := .zero }

/-- The same zoom and pan in a container of another size. -/
def resizeContainer (v : Viewport α) (container : Size .screen α) : Viewport α :=
  { v with container }

/-- What can be done to a viewport. -/
inductive Step (α : Type) where
  | zoomAt (anchor : Point .screen α) (factor : α)
  | wheel (anchor : Point .screen α) (notches : Int)
  | panBy (d : Point .screen α)
  | setPan (pan : Point .screen α)
  | reset
  | resizeContainer (container : Size .screen α)
deriving Repr, DecidableEq

/-- The viewport after a step. -/
def apply (v : Viewport α) : Step α → Viewport α
  | .zoomAt anchor factor => v.zoomAt anchor factor
  | .wheel anchor notches => v.wheel anchor notches
  | .panBy d => v.panBy d
  | .setPan pan => v.setPan pan
  | .reset => v.reset
  | .resizeContainer container => v.resizeContainer container

/-- The viewport after a sequence of steps. -/
def run (v : Viewport α) (steps : List (Step α)) : Viewport α := steps.foldl apply v

end Viewport

end ClipEdit
