import ClipEdit.Overlay.AspectRatio
import ClipEdit.Overlay.Crop
import ClipEdit.Overlay.Handle

/-!
# Keeping proportions

What an aspect ratio does to sizes: `AspectRatio.lock` gives the size that a resize from a handle may
have, `AspectRatio.fitCrop` the largest crop of the ratio in the middle of a frame.
-/

namespace ClipEdit.AspectRatio

open Scalar

variable {α : Type} [Scalar α]

/-- A size locked to a ratio. The left and the right edge keep the width, the top and the bottom
edge the height. A corner keeps the side that does not overshoot: of a size that is too wide the
height, of any other the width. -/
def lock (ratio : AspectRatio) (handle : EdgeHandle) (size : Size .video α) : Size .video α :=
  let locked : Size .video α :=
    match (ratio.value : Option α) with
    | none => size
    | some target =>
        if handle.isHorizontal then ⟨size.width, size.width / target⟩
        else if handle.isVertical then ⟨size.height * target, size.height⟩
        else if target < size.width / size.height then ⟨size.height * target, size.height⟩
        else ⟨size.width, size.width / target⟩
  ⟨roundMilli locked.width, roundMilli locked.height⟩

/-- The largest size of a ratio that fits a frame: as high as the frame when the frame is too wide
for the ratio, and as wide as the frame otherwise. -/
def fitSize (target : α) (frame : Size .video α) : Size .video α :=
  if target < frame.width / frame.height then ⟨frame.height * target, frame.height⟩
  else ⟨frame.width, frame.width / target⟩

/-- The largest crop of the ratio, in the middle of the frame; the whole frame when the ratio is
free. -/
def fitCrop (ratio : AspectRatio) (frame : Size .video α) : Crop α :=
  match (ratio.value : Option α) with
  | none => (Crop.full frame).rounded
  | some target =>
      let size := fitSize target frame
      Crop.rounded
        { x := (frame.width - size.width) / 2.0
          y := (frame.height - size.height) / 2.0
          width := size.width
          height := size.height }

end ClipEdit.AspectRatio
