/-!
# Handles

What the pointer can take hold of to change the size of an overlay: the four edges and the four
corners of a crop, named by the points of the compass, and the two axes of a highlight.
-/

namespace ClipEdit

/-- The handles of a crop. -/
inductive EdgeHandle where
  | n
  | ne
  | e
  | se
  | s
  | sw
  | w
  | nw
deriving Repr, DecidableEq

namespace EdgeHandle

/-- All handles, clockwise from the top. -/
def all : List EdgeHandle := [n, ne, e, se, s, sw, w, nw]

/-- Only the left or the right edge. -/
def isHorizontal : EdgeHandle → Bool
  | e | w => true
  | _ => false

/-- Only the top or the bottom edge. -/
def isVertical : EdgeHandle → Bool
  | n | s => true
  | _ => false

/-- Two edges at once. -/
def isCorner : EdgeHandle → Bool
  | ne | se | sw | nw => true
  | _ => false

/-- Does the handle move the top edge? -/
def hasNorth : EdgeHandle → Bool
  | n | ne | nw => true
  | _ => false

/-- Does the handle move the bottom edge? -/
def hasSouth : EdgeHandle → Bool
  | s | se | sw => true
  | _ => false

/-- Does the handle move the right edge? -/
def hasEast : EdgeHandle → Bool
  | e | ne | se => true
  | _ => false

/-- Does the handle move the left edge? -/
def hasWest : EdgeHandle → Bool
  | w | nw | sw => true
  | _ => false

end EdgeHandle

/-- The handles of a highlight. -/
inductive RadiusHandle where
  /-- The horizontal radius. -/
  | radiusX
  /-- The vertical radius. -/
  | radiusY
deriving Repr, DecidableEq

end ClipEdit
