import ClipEdit.Preview.Plane

/-!
# Highlights

The ellipse that draws attention to a part of the frame, named by its centre and its two radii, with
the style it is filled in.

`Highlight.constrain` brings any ellipse into a frame: each radius between its minimum and half the
frame, then the centre so far from every edge that the ellipse stays inside. The style is never
touched.
-/

namespace ClipEdit

open Scalar

/-- An ellipse in source pixels. -/
structure Highlight (α : Type) where
  x : α
  y : α
  radiusX : α
  radiusY : α
  /-- How strongly the ellipse is filled, from `0` to `1`. -/
  opacity : α
  /-- The colour it is filled with, as a style sheet names it. -/
  color : String
deriving Repr, DecidableEq

namespace Highlight

variable {α : Type} [Scalar α]

/-- The smallest horizontal radius. -/
def minRadiusX : α := 10.0

/-- The smallest vertical radius. -/
def minRadiusY : α := 15.0

/-- The opacity of a new highlight. -/
def defaultOpacity : α := 0.15

/-- The colour of a new highlight. -/
def defaultColor : String := "#FFFF00"

/-- An ellipse in the default style. -/
def ofShape (x y radiusX radiusY : α) : Highlight α :=
  ⟨x, y, radiusX, radiusY, defaultOpacity, defaultColor⟩

/-- The highlight of a newly loaded clip: in the middle of the frame, a sixth of it wide and a third
of it high. -/
def centeredIn (frame : Size .video α) : Highlight α :=
  ofShape (frame.width / 2.0) (frame.height / 2.0) (frame.width / 12.0) (frame.height / 6.0)

/-- All numbers rounded to thousandths. -/
def rounded (h : Highlight α) : Highlight α :=
  { h with
    x := roundMilli h.x
    y := roundMilli h.y
    radiusX := roundMilli h.radiusX
    radiusY := roundMilli h.radiusY
    opacity := roundMilli h.opacity }

/-- The ellipse moved by `d`. -/
def offset (h : Highlight α) (d : Point .video α) : Highlight α :=
  { h with x := h.x + d.x, y := h.y + d.y }

/-- The ellipse brought into a frame: first the radii, then the centre. -/
def constrain (frame : Size .video α) (h : Highlight α) : Highlight α :=
  let radiusX := roundMilli (within h.radiusX minRadiusX (frame.width / 2.0))
  let radiusY := roundMilli (within h.radiusY minRadiusY (frame.height / 2.0))
  { h with
    x := roundMilli (within h.x radiusX (frame.width - radiusX))
    y := roundMilli (within h.y radiusY (frame.height - radiusY))
    radiusX
    radiusY }

end Highlight

end ClipEdit
