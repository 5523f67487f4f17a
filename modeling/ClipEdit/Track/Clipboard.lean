import ClipEdit.Overlay.Crop
import ClipEdit.Overlay.Highlight
import ClipEdit.Track.Basic

/-!
# Clipboard

The values of crop and highlight tracks, and the clipboard that carries one value from keyframe to
keyframe. Copying replaces what was held; pasting is refused when nothing is held or a value of the
other kind.
-/

namespace ClipEdit

variable {α : Type} [Scalar α]

instance : Blend α (Crop α) where
  blend a b t :=
    { x := Scalar.blend a.x b.x t
      y := Scalar.blend a.y b.y t
      width := Scalar.blend a.width b.width t
      height := Scalar.blend a.height b.height t }

/-- The colour does not blend: it stays that of the earlier keyframe. -/
instance : Blend α (Highlight α) where
  blend a b t :=
    { x := Scalar.blend a.x b.x t
      y := Scalar.blend a.y b.y t
      radiusX := Scalar.blend a.radiusX b.radiusX t
      radiusY := Scalar.blend a.radiusY b.radiusY t
      opacity := Scalar.blend a.opacity b.opacity t
      color := a.color }

/-- A copied value. -/
inductive Clipping (α : Type) where
  | crop (value : Crop α)
  | highlight (value : Highlight α)
deriving Repr, DecidableEq

/-- Values that can be copied and pasted. -/
class Clippable (α : outParam Type) (V : Type) where
  toClipping : V → Clipping α
  /-- The value of a clipping, if it is one of this kind. -/
  ofClipping? : Clipping α → Option V

instance : Clippable α (Crop α) where
  toClipping := .crop
  ofClipping?
    | .crop c => some c
    | .highlight _ => none

instance : Clippable α (Highlight α) where
  toClipping := .highlight
  ofClipping?
    | .highlight h => some h
    | .crop _ => none

/-- At most one copied value. -/
structure Clipboard (α : Type) where
  held : Option (Clipping α)
deriving Repr, DecidableEq

namespace Clipboard

variable {V : Type} [Clippable α V]

/-- Nothing copied yet. -/
def empty : Clipboard α := ⟨none⟩

/-- Is nothing held? -/
def isEmpty (c : Clipboard α) : Bool := c.held.isNone

/-- Copy what the keyframe at a frame shows. Without a keyframe there the clipboard keeps what it
holds. -/
def copyFrom (c : Clipboard α) (t : Track V) (frame : Frame) : Outcome (Clipboard α) :=
  match t.copy? frame with
  | some value => .accept ⟨some (Clippable.toClipping value)⟩
  | none => .refuse c

/-- Write the value that is held into a track, if it is of the kind of the track. -/
def pasteInto (c : Clipboard α) (t : Track V) (frame : Frame) : Outcome (Track V) :=
  match c.held.bind Clippable.ofClipping? with
  | some value => t.paste frame value
  | none => .refuse t

end Clipboard

end ClipEdit
