import ClipEdit.Scalar.Binary64

/-!
# Planes

The editor works in two planes at once: the plane of the source video, measured in source pixels
from the top left corner of the frame, and the plane of the preview on the screen. Points, sizes and
boxes carry the name of their plane in their type, so that a pointer position can only reach the
geometry of a clip by way of a `Viewport`.
-/

namespace ClipEdit

/-- The two planes. -/
inductive Plane where
  | video
  | screen
deriving Repr, DecidableEq

/-- A point, or the difference of two points, in a plane. -/
structure Point (plane : Plane) (α : Type) where
  x : α
  y : α
deriving Repr, DecidableEq

/-- The extent of something in a plane. -/
structure Size (plane : Plane) (α : Type) where
  width : α
  height : α
deriving Repr, DecidableEq

/-- A box with its sides along the axes of a plane. -/
structure Box (plane : Plane) (α : Type) where
  origin : Point plane α
  size : Size plane α
deriving Repr, DecidableEq

variable {plane : Plane} {α : Type} [Scalar α]

namespace Point

/-- The origin of the plane. -/
def zero : Point plane α := ⟨0, 0⟩

instance : Add (Point plane α) where
  add p q := ⟨p.x + q.x, p.y + q.y⟩

instance : Sub (Point plane α) where
  sub p q := ⟨p.x - q.x, p.y - q.y⟩

/-- Both coordinates multiplied by `k`. -/
def scale (p : Point plane α) (k : α) : Point plane α := ⟨p.x * k, p.y * k⟩

/-- Both coordinates divided by `k`. -/
def shrink (p : Point plane α) (k : α) : Point plane α := ⟨p.x / k, p.y / k⟩

/-- The straight-line distance of two points. -/
def distance (p q : Point plane Float) : Float :=
  let d := p - q
  (d.x * d.x + d.y * d.y).sqrt

end Point

namespace Size

/-- Width divided by height. -/
def aspect (s : Size plane α) : α := s.width / s.height

end Size

namespace Box

/-- The corner opposite the origin. -/
def bottomRight (b : Box plane α) : Point plane α :=
  ⟨b.origin.x + b.size.width, b.origin.y + b.size.height⟩

/-- Does the point lie in the box, its border included? -/
def contains (b : Box plane α) (p : Point plane α) : Bool :=
  b.origin.x ≤ p.x && p.x ≤ b.origin.x + b.size.width &&
    b.origin.y ≤ p.y && p.y ≤ b.origin.y + b.size.height

end Box

end ClipEdit
