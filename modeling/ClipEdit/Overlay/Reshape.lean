import ClipEdit.Overlay.AspectLock
import ClipEdit.Overlay.Highlight

/-!
# Reshaping overlays

How crops and highlights follow the pointer. `Reshape` is what the two have in common: they can be
moved and resized by a distance in source pixels, and either way end up inside the frame.

Every operation starts from the overlay as it was when the pointer went down and takes the whole
distance since then, so the steps of a gesture never add up their errors.
-/

namespace ClipEdit

open Scalar

/-- What an overlay is edited within: the frame of the clip and the lock on the proportions of its
crop. -/
structure EditContext (α : Type) where
  frame : Size .video α
  ratio : AspectRatio
deriving Repr, DecidableEq

/-- **Overlays** of type `γ`, measured in scalars of type `α` and resized by handles of type `η`. -/
class Reshape (α : outParam Type) (γ : Type) (η : outParam Type) where
  /-- Brought into the frame. -/
  fitted : EditContext α → γ → γ
  /-- Moved by a distance, then brought into the frame. -/
  moved : EditContext α → Point .video α → γ → γ
  /-- Resized by moving a handle, then brought into the frame. -/
  resized : EditContext α → η → Point .video α → γ → γ

variable {α : Type} [Scalar α]

namespace Crop

/-- The size a handle leaves when it is moved by `d`. Moving edges stop at the frame, and no side
falls below its minimum. -/
def draggedSize (frame : Size .video α) (handle : EdgeHandle) (d : Point .video α) (c : Crop α) :
    Size .video α :=
  let left := if handle.hasWest then atLeast (c.x + d.x) 0 else c.x
  let right := if handle.hasEast then atMost (c.right + d.x) frame.width else c.right
  let top := if handle.hasNorth then atLeast (c.y + d.y) 0 else c.y
  let bottom := if handle.hasSouth then atMost (c.bottom + d.y) frame.height else c.bottom
  ⟨atLeast (right - left) minSize, atLeast (bottom - top) minSize⟩

/-- The room between the edges that stay where they are and the frame. -/
def room (frame : Size .video α) (handle : EdgeHandle) (c : Crop α) : Size .video α :=
  { width := if handle.hasWest then c.right else frame.width - c.x
    height := if handle.hasNorth then c.bottom else frame.height - c.y }

/-- A size that exceeds the room, shrunk as a whole until it fits. -/
def shrinkInto (room size : Size .video α) : Size .video α :=
  if room.width < size.width ∨ room.height < size.height then
    let factor := atMost (room.width / size.width) (room.height / size.height)
    ⟨roundMilli (size.width * factor), roundMilli (size.height * factor)⟩
  else size

/-- The size after a resize: dragged, locked to the ratio, and shrunk again where the lock made a
side outgrow the frame. -/
def resizedSize (ctx : EditContext α) (handle : EdgeHandle) (d : Point .video α) (c : Crop α) :
    Size .video α :=
  shrinkInto (c.room ctx.frame handle) (ctx.ratio.lock handle (c.draggedSize ctx.frame handle d))

/-- A crop of the given size whose edges opposite the handle are those of `c`. -/
def anchored (handle : EdgeHandle) (size : Size .video α) (c : Crop α) : Crop α :=
  { x := if handle.hasWest then c.right - size.width else c.x
    y := if handle.hasNorth then c.bottom - size.height else c.y
    width := size.width
    height := size.height }

/-- The crop resized by moving a handle. -/
def resized (ctx : EditContext α) (handle : EdgeHandle) (d : Point .video α) (c : Crop α) :
    Crop α :=
  constrain ctx.frame (c.anchored handle (c.resizedSize ctx handle d))

instance : Reshape α (Crop α) EdgeHandle where
  fitted ctx c := c.constrain ctx.frame
  moved ctx d c := (c.offset d).constrain ctx.frame
  resized := Crop.resized

end Crop

namespace Highlight

/-- The ellipse with one radius changed by the distance along its axis. -/
def stretch (handle : RadiusHandle) (d : Point .video α) (h : Highlight α) : Highlight α :=
  match handle with
  | .radiusX => { h with radiusX := h.radiusX + d.x }
  | .radiusY => { h with radiusY := h.radiusY + d.y }

instance : Reshape α (Highlight α) RadiusHandle where
  fitted ctx h := h.constrain ctx.frame
  moved ctx d h := (h.offset d).constrain ctx.frame
  resized ctx handle d h := (h.stretch handle d).constrain ctx.frame

end Highlight

end ClipEdit
