import ClipEdit.Overlay.Reshape
import ClipEdit.Proofs.Overlay.Constrain

/-!
# What a move and a stretch leave alone

A crop or a highlight that is moved, and a highlight that is stretched along one axis, is brought
into the frame as a whole: all its numbers are clamped and rounded once more, also those that the
edit has nothing to do with. They stay what they were because of two facts about an overlay that was
in the frame:

* sizes are clamped without a look at the position, so a size that the edit did not change is the
  size that was settled before;
* positions are clamped into a range that hangs on the size, and a position in thousandths that lies
  in this range is left alone.

`Crop.Shifted`, `Highlight.Shifted` and `Highlight.Stretched` say what comes of an edit, number by
number. What the edit does change ends within half a thousandth of where the pointer put it, brought
into its range. A stretched axis moves its centre only where the ellipse would leave the frame, and
then no farther than it has to (`AxisStretched`). `reshaped_locally` proves all three, each
under what it needs of its own overlay.
-/

namespace ClipEdit

open Scalar Exact

/-! ### Crops -/

namespace Crop

/-- **A crop that was moved** by `d`. Its size is what it was, and each coordinate is where it was
moved to, as far as the frame has room for the size. -/
structure Shifted (frame : Size .video ℚ) (d : Point .video ℚ) (c c' : Crop ℚ) : Prop where
  width_eq : c'.width = c.width
  height_eq : c'.height = c.height
  x_near : |c'.x - max 0 (min (c.x + d.x) (frame.width - c.width))| ≤ 1 / 2000
  y_near : |c'.y - max 0 (min (c.y + d.y) (frame.height - c.height))| ≤ 1 / 2000

/-- A position that is brought into the room that a size leaves in a side. -/
theorem abs_position_sub_le {side size : ℚ} (h_le : size ≤ side) (position : ℚ) :
    |roundMilli (within position 0 (atLeast (side - size) 0)) -
      max 0 (min position (side - size))| ≤ 1 / 2000 := by
  have h_slack : 0 ≤ side - size := sub_nonneg.mpr h_le
  rw [atLeast_eq_max, max_eq_left h_slack]
  exact abs_roundMilli_within_sub_le h_slack position

variable {frame : Size .video ℚ} {c : Crop ℚ}

theorem shifted_offset (h_room : frame.HasRoom) (h_fixed : c.constrain frame = c)
    (d : Point .video ℚ) : c.Shifted frame d ((c.offset d).constrain frame) := by
  obtain ⟨h_x, h_y, -, -, h_right, h_bottom⟩ := h_room.crop_inside ⟨c, h_fixed⟩
  -- the size does not depend on the position, so it is settled as it was without the move
  have h_width : ((c.offset d).constrain frame).width = c.width :=
    calc ((c.offset d).constrain frame).width = (c.constrain frame).width := rfl
      _ = c.width := by rw [h_fixed]
  have h_height : ((c.offset d).constrain frame).height = c.height :=
    calc ((c.offset d).constrain frame).height = (c.constrain frame).height := rfl
      _ = c.height := by rw [h_fixed]
  refine ⟨h_width, h_height, ?_, ?_⟩
  · change |roundMilli (within (c.x + d.x) 0
      (atLeast (frame.width - ((c.offset d).constrain frame).width) 0)) - _| ≤ _
    rw [h_width]
    exact abs_position_sub_le (by linarith) (c.x + d.x)
  · change |roundMilli (within (c.y + d.y) 0
      (atLeast (frame.height - ((c.offset d).constrain frame).height) 0)) - _| ≤ _
    rw [h_height]
    exact abs_position_sub_le (by linarith) (c.y + d.y)

/-- What the pointer does to a crop that was in the frame. -/
theorem shifted_moved {ctx : EditContext ℚ} (h_room : ctx.frame.HasRoom)
    (h_fixed : c.constrain ctx.frame = c) (d : Point .video ℚ) :
    c.Shifted ctx.frame d (Reshape.moved ctx d c) :=
  shifted_offset h_room h_fixed d

end Crop

/-! ### Highlights -/

namespace Highlight

/-- The style is not geometry, and no edit with the pointer touches it. -/
structure SameStyle (h h' : Highlight ℚ) : Prop where
  opacity_eq : h'.opacity = h.opacity
  color_eq : h'.color = h.color

/-- **A highlight that was moved** by `d`. Its radii and its style are what they were, and its
centre is where it was moved to, as far as the frame has room for the radii. -/
structure Shifted (frame : Size .video ℚ) (d : Point .video ℚ) (h h' : Highlight ℚ) : Prop where
  radiusX_eq : h'.radiusX = h.radiusX
  radiusY_eq : h'.radiusY = h.radiusY
  style : h.SameStyle h'
  x_near : |h'.x - max h.radiusX (min (h.x + d.x) (frame.width - h.radiusX))| ≤ 1 / 2000
  y_near : |h'.y - max h.radiusY (min (h.y + d.y) (frame.height - h.radiusY))| ≤ 1 / 2000

/-- **An axis that was stretched** by `d`, in a side of the frame. The radius is what it was
stretched to, between the smallest one and half the side. The centre gives way to it exactly as far
as it must, which is not at all if the new radius fits around it. -/
structure AxisStretched (least side d centre radius centre' radius' : ℚ) : Prop where
  radius_near : |radius' - max least (min (radius + d) (side / 2))| ≤ 1 / 2000
  centre_eq : centre' = max radius' (min centre (side - radius'))
  centre_held_iff : centre' = centre ↔ radius' ≤ centre ∧ centre + radius' ≤ side

/-- **A highlight that was stretched** by one of its handles. One axis is stretched, and of the rest
nothing is touched. -/
def Stretched (frame : Size .video ℚ) (d : Point .video ℚ) (h h' : Highlight ℚ) :
    RadiusHandle → Prop
  | .radiusX => AxisStretched 10 frame.width d.x h.x h.radiusX h'.x h'.radiusX ∧
      h'.y = h.y ∧ h'.radiusY = h.radiusY ∧ h.SameStyle h'
  | .radiusY => AxisStretched 15 frame.height d.y h.y h.radiusY h'.y h'.radiusY ∧
      h'.x = h.x ∧ h'.radiusX = h.radiusX ∧ h.SameStyle h'

/-- One axis of a highlight whose radius was changed before it was brought into the frame. -/
theorem axisStretched {least side centre : ℚ} (h_half : IsMilli (side / 2))
    (h_least : IsMilli least) (h_room : 2 * least ≤ side) (h_centre : IsMilli centre)
    (radius d : ℚ) :
    let radius' := roundMilli (within (radius + d) least (side / 2.0))
    AxisStretched least side d centre radius
      (roundMilli (within centre radius' (side - radius'))) radius' := by
  intro radius'
  have h_two : (2.0 : ℚ) = 2 := by norm_num
  have h_radius : IsMilli radius' := isMilli_roundMilli _
  have h_le : radius' ≤ side / 2 := (radius_inside h_half h_least h_room (radius + d)).2
  have h_range : radius' ≤ side - radius' := by linarith
  -- the ends of the range are in thousandths, as the centre is, so nothing is rounded
  have h_eq : roundMilli (within centre radius' (side - radius')) =
      max radius' (min centre (side - radius')) :=
    roundMilli_within_of_isMilli h_centre h_radius (h_half.of_half.sub h_radius) h_range
  refine ⟨?_, h_eq, ?_⟩
  · rw [← h_two]
    exact abs_roundMilli_within_sub_le (by rw [h_two]; linarith) (radius + d)
  · rw [h_eq, max_min_eq_self_iff h_range, le_sub_iff_add_le]

variable {frame : Size .video ℚ} {h : Highlight ℚ}

theorem shifted_offset (h_room : frame.HasRoom) (h_fixed : h.constrain frame = h)
    (d : Point .video ℚ) : h.Shifted frame d ((h.offset d).constrain frame) := by
  obtain ⟨-, -, h_left, h_right, h_top, h_bottom⟩ := h_room.highlight_inside ⟨h, h_fixed⟩
  -- the radii do not depend on the centre, so they are settled as they were without the move
  have h_radius : ((h.offset d).constrain frame).radiusX = h.radiusX :=
    calc ((h.offset d).constrain frame).radiusX = (h.constrain frame).radiusX := rfl
      _ = h.radiusX := by rw [h_fixed]
  have h_radius' : ((h.offset d).constrain frame).radiusY = h.radiusY :=
    calc ((h.offset d).constrain frame).radiusY = (h.constrain frame).radiusY := rfl
      _ = h.radiusY := by rw [h_fixed]
  refine ⟨h_radius, h_radius', ⟨rfl, rfl⟩, ?_, ?_⟩
  · change |roundMilli (within (h.x + d.x) ((h.offset d).constrain frame).radiusX
      (frame.width - ((h.offset d).constrain frame).radiusX)) - _| ≤ _
    rw [h_radius]
    exact abs_roundMilli_within_sub_le (by linarith) (h.x + d.x)
  · change |roundMilli (within (h.y + d.y) ((h.offset d).constrain frame).radiusY
      (frame.height - ((h.offset d).constrain frame).radiusY)) - _| ≤ _
    rw [h_radius']
    exact abs_roundMilli_within_sub_le (by linarith) (h.y + d.y)

theorem stretched_stretch (h_room : frame.HasRoom) (h_fixed : h.constrain frame = h)
    (d : Point .video ℚ) (handle : RadiusHandle) :
    h.Stretched frame d ((h.stretch handle d).constrain frame) handle := by
  have h_framed : h.Framed frame := ⟨h, h_fixed⟩
  obtain ⟨h_x, h_y, -, -⟩ := h_framed.isMilli
  have h_wide := h_room.wide
  have h_high := h_room.high
  -- the axis that is not stretched is settled as it was before
  cases handle with
  | radiusX =>
    refine ⟨?_, ?_, ?_, rfl, rfl⟩
    · rw [← minRadiusX_eq]
      exact axisStretched (isMilli_half h_room.even_width) isMilli_minRadiusX
        (by rw [minRadiusX_eq]; linarith) h_x h.radiusX d.x
    · calc ((h.stretch .radiusX d).constrain frame).y = (h.constrain frame).y := rfl
        _ = h.y := by rw [h_fixed]
    · calc ((h.stretch .radiusX d).constrain frame).radiusY = (h.constrain frame).radiusY := rfl
        _ = h.radiusY := by rw [h_fixed]
  | radiusY =>
    refine ⟨?_, ?_, ?_, rfl, rfl⟩
    · rw [← minRadiusY_eq]
      exact axisStretched (isMilli_half h_room.even_height) isMilli_minRadiusY
        (by rw [minRadiusY_eq]; linarith) h_y h.radiusY d.y
    · calc ((h.stretch .radiusY d).constrain frame).x = (h.constrain frame).x := rfl
        _ = h.x := by rw [h_fixed]
    · calc ((h.stretch .radiusY d).constrain frame).radiusX = (h.constrain frame).radiusX := rfl
        _ = h.radiusX := by rw [h_fixed]

/-- What the pointer does to a highlight that was in the frame, with a move or with a handle. -/
theorem shifted_and_stretched {ctx : EditContext ℚ} (h_room : ctx.frame.HasRoom)
    (h_fixed : h.constrain ctx.frame = h) (d : Point .video ℚ) :
    h.Shifted ctx.frame d (Reshape.moved ctx d h) ∧
      ∀ handle, h.Stretched ctx.frame d (Reshape.resized ctx handle d h) handle :=
  ⟨shifted_offset h_room h_fixed d, stretched_stretch h_room h_fixed d⟩

end Highlight

/-- **An edit with the pointer touches what it is meant to touch**, in a frame with room for
overlays, if the overlay was in the frame. A move keeps the size of a crop, and the radii and the
style of a highlight; a handle of a highlight keeps the other axis and the style. What the edit does
change is within half a thousandth of where it was put, brought into its range. -/
theorem reshaped_locally {ctx : EditContext ℚ} (h_room : ctx.frame.HasRoom) (d : Point .video ℚ) :
    (∀ c : Crop ℚ, c.constrain ctx.frame = c →
        c.Shifted ctx.frame d (Reshape.moved ctx d c)) ∧
      ∀ h : Highlight ℚ, h.constrain ctx.frame = h →
        h.Shifted ctx.frame d (Reshape.moved ctx d h) ∧
          ∀ handle, h.Stretched ctx.frame d (Reshape.resized ctx handle d h) handle :=
  ⟨fun _ h_fixed => Crop.shifted_moved h_room h_fixed d,
    fun _ h_fixed => Highlight.shifted_and_stretched h_room h_fixed d⟩

/-- A crop and a highlight near the left edge, edited by a third of a pixel to the left and 100
pixels down. The new radius of 160 does not fit above the centre, which gives way to it; the
horizontal radius does. -/
theorem reshaped_locally_of_near_edge :
    ∃ (c : Crop ℚ) (h h' : Highlight ℚ),
      (⟨0, 20, 100, 50⟩ : Crop ℚ).Shifted ⟨1920, 1080⟩ ⟨-1 / 3, 100⟩ c ∧
      (⟨60, 70, 60, 60, 0.5, "#000000"⟩ : Highlight ℚ).Stretched ⟨1920, 1080⟩ ⟨-1 / 3, 100⟩ h
        .radiusX ∧
      (⟨60, 70, 60, 60, 0.5, "#000000"⟩ : Highlight ℚ).Stretched ⟨1920, 1080⟩ ⟨-1 / 3, 100⟩ h'
        .radiusY ∧
      c = ⟨0, 120, 100, 50⟩ ∧ h = ⟨60, 70, 59.667, 60, 0.5, "#000000"⟩ ∧
      h' = ⟨60, 160, 60, 160, 0.5, "#000000"⟩ := by
  have h_room : (⟨⟨1920, 1080⟩, .free⟩ : EditContext ℚ).frame.HasRoom :=
    ⟨⟨960000, by norm_num⟩, ⟨540000, by norm_num⟩, by norm_num, by norm_num⟩
  obtain ⟨h_crops, h_highlights⟩ := reshaped_locally h_room ⟨-1 / 3, 100⟩
  -- both overlays were in the frame
  have h_moved := h_crops ⟨0, 20, 100, 50⟩ (by decide +kernel)
  obtain ⟨-, h_stretched⟩ := h_highlights ⟨60, 70, 60, 60, 0.5, "#000000"⟩ (by decide +kernel)
  exact ⟨_, _, _, h_moved, h_stretched .radiusX, h_stretched .radiusY, by decide +kernel,
    by decide +kernel, by decide +kernel⟩

end ClipEdit
