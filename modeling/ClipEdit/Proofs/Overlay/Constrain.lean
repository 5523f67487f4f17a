import ClipEdit.Proofs.Scalar.Milli
import ClipEdit.Track.Clipboard
import Mathlib.Tactic.NormNum

/-!
# Overlays in the frame

An overlay is `Framed` when `constrain` has brought it into the frame. What that means is settled
here in exact arithmetic. For every frame, even one that is no whole number of thousandths or has no
room for an overlay of the smallest size:

* `Framed.constrain_eq` — bringing the overlay into the frame once more changes nothing, so
  `constrain` is idempotent (`constrain_constrain`);
* `Framed.rounded_eq` — its geometry is in thousandths, so rounding changes nothing either.

In a frame that has room and sides that are thousandths — for a highlight half the sides, since the
radii are held below those — a framed overlay lies inside the frame and is not smaller than allowed
(`Framed.inside`). Position and size are coupled there, and still a blend of two overlays inside the
frame is inside too, because all conditions are linear (`Inside.blend`).
-/

namespace ClipEdit

open Scalar Exact

section Framed

variable {α : Type} [Scalar α]

/-- The crop was brought into the frame. -/
def Crop.Framed (frame : Size .video α) (c : Crop α) : Prop :=
  ∃ given : Crop α, given.constrain frame = c

/-- The highlight was brought into the frame. -/
def Highlight.Framed (frame : Size .video α) (h : Highlight α) : Prop :=
  ∃ given : Highlight α, given.constrain frame = h

end Framed

/-! ### Blending numbers -/

section Blending

variable {a b c d m s : ℚ}

/-- A blend of two numbers is not below what both of them are not below. -/
theorem le_blend (ha : m ≤ a) (hb : m ≤ b) (h_nonneg : 0 ≤ s) (h_le_one : s ≤ 1) :
    m ≤ blend a b s := by
  -- the distance from `m` is a weighted sum of two distances
  have h_eq : blend a b s - m = (1 - s) * (a - m) + s * (b - m) := by
    rw [blend]
    ring
  have ha' := mul_nonneg (sub_nonneg.mpr h_le_one) (sub_nonneg.mpr ha)
  have hb' := mul_nonneg h_nonneg (sub_nonneg.mpr hb)
  linarith

theorem blend_le (ha : a ≤ m) (hb : b ≤ m) (h_nonneg : 0 ≤ s) (h_le_one : s ≤ 1) :
    blend a b s ≤ m := by
  have h_eq : m - blend a b s = (1 - s) * (m - a) + s * (m - b) := by
    rw [blend]
    ring
  have ha' := mul_nonneg (sub_nonneg.mpr h_le_one) (sub_nonneg.mpr ha)
  have hb' := mul_nonneg h_nonneg (sub_nonneg.mpr hb)
  linarith

theorem blend_add_blend (a b c d s : ℚ) : blend a b s + blend c d s = blend (a + c) (b + d) s := by
  rw [blend, blend, blend]
  ring

theorem blend_sub_blend (a b c d s : ℚ) : blend a b s - blend c d s = blend (a - c) (b - d) s := by
  rw [blend, blend, blend]
  ring

end Blending

variable {frame : Size .video ℚ}

/-! ### Crops -/

namespace Crop

variable {a b c : Crop ℚ} {s : ℚ}

/-- **Bringing a crop into the frame twice is bringing it there once.** -/
theorem Framed.constrain_eq (h : c.Framed frame) : c.constrain frame = c := by
  obtain ⟨given, rfl⟩ := h
  simp only [constrain, roundMilli_within_roundMilli_within]

theorem Framed.rounded_eq (h : c.Framed frame) : c.rounded = c := by
  obtain ⟨given, rfl⟩ := h
  simp only [constrain, rounded, roundMilli_roundMilli]

/-- In thousandths, as everything that was brought into a frame. -/
theorem Framed.isMilli (h : c.Framed frame) :
    IsMilli c.x ∧ IsMilli c.y ∧ IsMilli c.width ∧ IsMilli c.height := by
  obtain ⟨given, rfl⟩ := h
  exact ⟨isMilli_roundMilli _, isMilli_roundMilli _, isMilli_roundMilli _, isMilli_roundMilli _⟩

/-- **A crop inside the frame**, and not smaller than allowed. -/
structure Inside (frame : Size .video ℚ) (c : Crop ℚ) : Prop where
  zero_le_x : 0 ≤ c.x
  zero_le_y : 0 ≤ c.y
  minSize_le_width : 10 ≤ c.width
  minSize_le_height : 10 ≤ c.height
  right_le : c.x + c.width ≤ frame.width
  bottom_le : c.y + c.height ≤ frame.height

theorem minSize_eq : (minSize : ℚ) = 10 := by
  change (10.0 : ℚ) = 10
  norm_num

theorem isMilli_minSize : IsMilli minSize := by
  rw [minSize_eq]
  exact isMilli_natCast 10

/-- A position that is clamped into the room that a size leaves in a side. -/
theorem position_inside {side size : ℚ} (h_side : IsMilli side) (h_size : IsMilli size)
    (h_le : size ≤ side) (position : ℚ) :
    0 ≤ roundMilli (within position 0 (atLeast (side - size) 0)) ∧
      roundMilli (within position 0 (atLeast (side - size) 0)) + size ≤ side := by
  have h_room : 0 ≤ side - size := sub_nonneg.mpr h_le
  rw [atLeast_eq_max, max_eq_left h_room]
  obtain ⟨h_lo, h_hi⟩ := roundMilli_within_mem isMilli_zero (h_side.sub h_size) h_room position
  exact ⟨h_lo, le_sub_iff_add_le.mp h_hi⟩

/-- **A crop that was brought into a frame is inside it**, if the frame has room for it and sides in
thousandths. -/
theorem Framed.inside (h : c.Framed frame) (h_width : IsMilli frame.width)
    (h_height : IsMilli frame.height) (h_wide : 10 ≤ frame.width) (h_high : 10 ≤ frame.height) :
    c.Inside frame := by
  obtain ⟨given, rfl⟩ := h
  -- the size first: it fits the frame, so the position has room
  obtain ⟨h_size, h_fits⟩ :=
    roundMilli_within_mem isMilli_minSize h_width (minSize_eq.trans_le h_wide) given.width
  obtain ⟨h_size', h_fits'⟩ :=
    roundMilli_within_mem isMilli_minSize h_height (minSize_eq.trans_le h_high) given.height
  obtain ⟨h_x, h_right⟩ := position_inside h_width (isMilli_roundMilli _) h_fits given.x
  obtain ⟨h_y, h_bottom⟩ := position_inside h_height (isMilli_roundMilli _) h_fits' given.y
  exact ⟨h_x, h_y, minSize_eq.ge.trans h_size, minSize_eq.ge.trans h_size', h_right, h_bottom⟩

/-- **Crops inside the frame blend inside the frame.** -/
theorem Inside.blend (ha : a.Inside frame) (hb : b.Inside frame) (h_nonneg : 0 ≤ s)
    (h_le_one : s ≤ 1) : (Blend.blend a b s : Crop ℚ).Inside frame where
  zero_le_x := le_blend ha.zero_le_x hb.zero_le_x h_nonneg h_le_one
  zero_le_y := le_blend ha.zero_le_y hb.zero_le_y h_nonneg h_le_one
  minSize_le_width := le_blend ha.minSize_le_width hb.minSize_le_width h_nonneg h_le_one
  minSize_le_height := le_blend ha.minSize_le_height hb.minSize_le_height h_nonneg h_le_one
  right_le := by
    -- the far edge is the blend of the far edges
    change Scalar.blend a.x b.x s + Scalar.blend a.width b.width s ≤ frame.width
    rw [blend_add_blend]
    exact blend_le ha.right_le hb.right_le h_nonneg h_le_one
  bottom_le := by
    change Scalar.blend a.y b.y s + Scalar.blend a.height b.height s ≤ frame.height
    rw [blend_add_blend]
    exact blend_le ha.bottom_le hb.bottom_le h_nonneg h_le_one

end Crop

/-! ### Highlights -/

namespace Highlight

variable {a b h : Highlight ℚ} {s : ℚ}

/-- **Bringing a highlight into the frame twice is bringing it there once.** -/
theorem Framed.constrain_eq (h_framed : h.Framed frame) : h.constrain frame = h := by
  obtain ⟨given, rfl⟩ := h_framed
  simp only [constrain, roundMilli_within_roundMilli_within]

/-- The opacity is not geometry: it is the only number of a highlight that rounding may change. -/
theorem Framed.rounded_eq (h_framed : h.Framed frame) :
    h.rounded = { h with opacity := roundMilli h.opacity } := by
  obtain ⟨given, rfl⟩ := h_framed
  simp only [constrain, rounded, roundMilli_roundMilli]

/-- The geometry is in thousandths. -/
theorem Framed.isMilli (h_framed : h.Framed frame) :
    IsMilli h.x ∧ IsMilli h.y ∧ IsMilli h.radiusX ∧ IsMilli h.radiusY := by
  obtain ⟨given, rfl⟩ := h_framed
  exact ⟨isMilli_roundMilli _, isMilli_roundMilli _, isMilli_roundMilli _, isMilli_roundMilli _⟩

/-- **A highlight inside the frame**, and not smaller than allowed. -/
structure Inside (frame : Size .video ℚ) (h : Highlight ℚ) : Prop where
  minRadiusX_le : 10 ≤ h.radiusX
  minRadiusY_le : 15 ≤ h.radiusY
  zero_le_left : 0 ≤ h.x - h.radiusX
  right_le : h.x + h.radiusX ≤ frame.width
  zero_le_top : 0 ≤ h.y - h.radiusY
  bottom_le : h.y + h.radiusY ≤ frame.height

/-- A radius that is clamped between the smallest one and half a side. -/
theorem radius_inside {side least : ℚ} (h_half : IsMilli (side / 2)) (h_least : IsMilli least)
    (h_room : 2 * least ≤ side) (radius : ℚ) :
    least ≤ roundMilli (within radius least (side / 2.0)) ∧
      roundMilli (within radius least (side / 2.0)) ≤ side / 2 := by
  have h_two : (2.0 : ℚ) = 2 := by norm_num
  rw [h_two]
  exact roundMilli_within_mem h_least h_half (by linarith) radius

/-- A centre that is kept a radius away from both ends of a side. -/
theorem centre_inside {side radius : ℚ} (h_half : IsMilli (side / 2)) (h_radius : IsMilli radius)
    (h_le : radius ≤ side / 2) (centre : ℚ) :
    0 ≤ roundMilli (within centre radius (side - radius)) - radius ∧
      roundMilli (within centre radius (side - radius)) + radius ≤ side := by
  obtain ⟨h_lo, h_hi⟩ :=
    roundMilli_within_mem h_radius (h_half.of_half.sub h_radius) (by linarith) centre
  exact ⟨sub_nonneg.mpr h_lo, le_sub_iff_add_le.mp h_hi⟩

theorem minRadiusX_eq : (minRadiusX : ℚ) = 10 := by
  change (10.0 : ℚ) = 10
  norm_num

theorem minRadiusY_eq : (minRadiusY : ℚ) = 15 := by
  change (15.0 : ℚ) = 15
  norm_num

theorem isMilli_minRadiusX : IsMilli minRadiusX := by
  rw [minRadiusX_eq]
  exact isMilli_natCast 10

theorem isMilli_minRadiusY : IsMilli minRadiusY := by
  rw [minRadiusY_eq]
  exact isMilli_natCast 15

/-- **A highlight that was brought into a frame is inside it**, if the frame has room for it and
half of each side is in thousandths. -/
theorem Framed.inside (h_framed : h.Framed frame) (h_width : IsMilli (frame.width / 2))
    (h_height : IsMilli (frame.height / 2)) (h_wide : 20 ≤ frame.width)
    (h_high : 30 ≤ frame.height) : h.Inside frame := by
  obtain ⟨given, rfl⟩ := h_framed
  -- the radii first: they fit half a side, so the centre has room
  obtain ⟨h_radius, h_fits⟩ :=
    radius_inside h_width isMilli_minRadiusX (by rw [minRadiusX_eq]; linarith) given.radiusX
  obtain ⟨h_radius', h_fits'⟩ :=
    radius_inside h_height isMilli_minRadiusY (by rw [minRadiusY_eq]; linarith) given.radiusY
  obtain ⟨h_left, h_right⟩ := centre_inside h_width (isMilli_roundMilli _) h_fits given.x
  obtain ⟨h_top, h_bottom⟩ := centre_inside h_height (isMilli_roundMilli _) h_fits' given.y
  exact ⟨minRadiusX_eq.ge.trans h_radius, minRadiusY_eq.ge.trans h_radius', h_left, h_right, h_top,
    h_bottom⟩

/-- **Highlights inside the frame blend inside the frame.** -/
theorem Inside.blend (ha : a.Inside frame) (hb : b.Inside frame) (h_nonneg : 0 ≤ s)
    (h_le_one : s ≤ 1) : (Blend.blend a b s : Highlight ℚ).Inside frame where
  minRadiusX_le := le_blend ha.minRadiusX_le hb.minRadiusX_le h_nonneg h_le_one
  minRadiusY_le := le_blend ha.minRadiusY_le hb.minRadiusY_le h_nonneg h_le_one
  zero_le_left := by
    change 0 ≤ Scalar.blend a.x b.x s - Scalar.blend a.radiusX b.radiusX s
    rw [blend_sub_blend]
    exact le_blend ha.zero_le_left hb.zero_le_left h_nonneg h_le_one
  right_le := by
    change Scalar.blend a.x b.x s + Scalar.blend a.radiusX b.radiusX s ≤ frame.width
    rw [blend_add_blend]
    exact blend_le ha.right_le hb.right_le h_nonneg h_le_one
  zero_le_top := by
    change 0 ≤ Scalar.blend a.y b.y s - Scalar.blend a.radiusY b.radiusY s
    rw [blend_sub_blend]
    exact le_blend ha.zero_le_top hb.zero_le_top h_nonneg h_le_one
  bottom_le := by
    change Scalar.blend a.y b.y s + Scalar.blend a.radiusY b.radiusY s ≤ frame.height
    rw [blend_add_blend]
    exact blend_le ha.bottom_le hb.bottom_le h_nonneg h_le_one

end Highlight

/-! ### Crops and highlights -/

/-- **A frame with room for overlays.** It holds the smallest crop and the smallest highlight, and
its sides are whole numbers of two thousandths, so that half a side is in thousandths too. -/
structure Size.HasRoom (frame : Size .video ℚ) : Prop where
  even_width : ∃ n : ℤ, frame.width = n * 0.002
  even_height : ∃ n : ℤ, frame.height = n * 0.002
  wide : 20 ≤ frame.width
  high : 30 ≤ frame.height

namespace Size.HasRoom

variable (h_room : frame.HasRoom)

include h_room

theorem crop_inside {c : Crop ℚ} (h : c.Framed frame) : c.Inside frame := by
  have h_wide := h_room.wide
  have h_high := h_room.high
  exact h.inside (isMilli_half h_room.even_width).of_half (isMilli_half h_room.even_height).of_half
    (by linarith) (by linarith)

theorem highlight_inside {h : Highlight ℚ} (h_framed : h.Framed frame) : h.Inside frame :=
  h_framed.inside (isMilli_half h_room.even_width) (isMilli_half h_room.even_height) h_room.wide
    h_room.high

end Size.HasRoom

/-- **Bringing overlays into a frame is idempotent**, whatever the overlay and whatever the frame:
one whose sides are no thousandths, that has no room for the smallest overlays, or whose sides are
zero or negative. -/
theorem constrain_constrain (frame : Size .video ℚ) (c : Crop ℚ) (h : Highlight ℚ) :
    (c.constrain frame).constrain frame = c.constrain frame ∧
      (h.constrain frame).constrain frame = h.constrain frame :=
  ⟨Crop.Framed.constrain_eq ⟨c, rfl⟩, Highlight.Framed.constrain_eq ⟨h, rfl⟩⟩

end ClipEdit
