import ClipEdit.Preview.Plane

/-!
# Crops

The part of the frame that a clip shows: a rectangle in source pixels, named by its top left corner
and its size.

`Crop.constrain` brings any rectangle into a frame. The size is settled first, between `minSize` and
the frame, so that the position that follows has a range to be clamped into. Everything that is
stored is rounded to thousandths of a pixel, the precision of the exported payload.
-/

namespace ClipEdit

open Scalar

/-- A rectangle in source pixels. -/
structure Crop (α : Type) where
  x : α
  y : α
  width : α
  height : α
deriving Repr, DecidableEq

namespace Crop

variable {α : Type} [Scalar α]

/-- No crop is narrower or lower than this, unless the frame itself is. -/
def minSize : α := 10.0

/-- The whole frame. -/
def full (frame : Size .video α) : Crop α := ⟨0, 0, frame.width, frame.height⟩

/-- The right edge. -/
def right (c : Crop α) : α := c.x + c.width

/-- The bottom edge. -/
def bottom (c : Crop α) : α := c.y + c.height

/-- The midpoint. -/
def center (c : Crop α) : Point .video α := ⟨c.x + c.width / 2.0, c.y + c.height / 2.0⟩

/-- Does the point lie in the rectangle, its border included? -/
def contains (c : Crop α) (p : Point .video α) : Bool :=
  c.x ≤ p.x && p.x ≤ c.right && c.y ≤ p.y && p.y ≤ c.bottom

/-- The rectangle moved by `d`. -/
def offset (c : Crop α) (d : Point .video α) : Crop α := { c with x := c.x + d.x, y := c.y + d.y }

/-- All four numbers rounded to thousandths. -/
def rounded (c : Crop α) : Crop α :=
  ⟨roundMilli c.x, roundMilli c.y, roundMilli c.width, roundMilli c.height⟩

/-- The rectangle brought into a frame: first the size, then the position. -/
def constrain (frame : Size .video α) (c : Crop α) : Crop α :=
  let width := roundMilli (within c.width minSize frame.width)
  let height := roundMilli (within c.height minSize frame.height)
  { x := roundMilli (within c.x 0 (atLeast (frame.width - width) 0))
    y := roundMilli (within c.y 0 (atLeast (frame.height - height) 0))
    width
    height }

end Crop

end ClipEdit
