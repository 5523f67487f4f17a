import ClipEdit.Proofs.Overlay.Resize

/-!
# The largest crop of a ratio

When a ratio is locked, the crop becomes the largest one of that ratio, in the middle of the frame.
What is largest is said here without looking at how it is found (`AspectRatio.Largest`): a size in
the proportion of the ratio that fits the frame, and that every other such size fits. There is one
for every ratio and every frame, and `fitSize` finds it (`largest_fitSize`).

The crop has that size in thousandths, and its place is rounded apart from its size. Each axis of it
is treated alone (`CentredSide`). Both roundings may go up, and still they do not lead out of a
frame in thousandths: half of what the size leaves of the frame stays free behind it, and together
the two roundings come to no more than a thousandth (`CentredSide.rounded`).

`AspectRatio.fitCrop_fitted` puts the axes together, and adds that a lock that is held at a corner
gives a frame the same size. Everything here is about exact arithmetic.
-/

namespace ClipEdit

open Scalar Exact

/-! ### One axis -/

/-- **A side in the middle of the frame**, up to rounding: one of a length close to the exact one
that lies inside the extent of the frame, with as much room before it as behind it. -/
structure CentredSide (extent exact position length : ℚ) : Prop where
  zero_le : 0 ≤ position
  length_nonneg : 0 ≤ length
  end_le : position + length ≤ extent
  near : |length - exact| ≤ 1 / 2000
  balanced : |2 * position + length - extent| ≤ 3 / 2000

namespace CentredSide

variable {extent exact position length : ℚ}

/-- **Rounding the place and the length of a side** keeps it in the middle. -/
theorem rounded (h_extent : IsMilli extent) (h_nonneg : 0 ≤ exact) (h_le : exact ≤ extent) :
    CentredSide extent exact (roundMilli ((extent - exact) / 2)) (roundMilli exact) := by
  have h_gap : 0 ≤ (extent - exact) / 2 := by linarith
  have h_place := abs_roundMilli_sub_le ((extent - exact) / 2)
  have h_near := abs_roundMilli_sub_le exact
  obtain ⟨h_place_lo, h_place_hi⟩ := abs_le.mp h_place
  obtain ⟨h_near_lo, h_near_hi⟩ := abs_le.mp h_near
  refine ⟨roundMilli_nonneg h_gap, roundMilli_nonneg h_nonneg, ?_, h_near,
    abs_le.mpr ⟨by linarith, by linarith⟩⟩
  rcases h_le.eq_or_lt with rfl | h_lt
  · -- a side as long as the frame begins where the frame does
    rw [sub_self, zero_div, roundMilli_eq_self isMilli_zero, zero_add, roundMilli_eq_self h_extent]
  · -- what is left of the frame takes up the two roundings, but for less than a thousandth
    refine ((isMilli_roundMilli _).add (isMilli_roundMilli _)).le_of_lt_add h_extent ?_
    linarith

/-- The midpoint is half as far off as the two ends are together. -/
theorem abs_center_sub_le (h : CentredSide extent exact position length) :
    |position + length / 2 - extent / 2| ≤ 1 / 1000 := by
  obtain ⟨h_lo, h_hi⟩ := abs_le.mp h.balanced
  exact abs_le.mpr ⟨by linarith, by linarith⟩

end CentredSide

namespace AspectRatio

variable {frame size : Size .video ℚ} {w h : ℕ}

/-! ### The largest size -/

/-- **The largest size of a ratio in a frame**: it has the proportion of the ratio and fits the
frame, and every other size that does fits into it. -/
structure Largest (w h : ℕ) (frame size : Size .video ℚ) : Prop where
  proportional : size.width * h = size.height * w
  fits : size.Fits frame
  fits_of_proportional : ∀ other : Size .video ℚ, other.width * h = other.height * w →
    other.Fits frame → other.Fits size

/-- **The largest size is found.** In a frame that is too wide for the ratio it is as high as the
frame, in any other as wide. -/
theorem largest_fitSize (h_w : 1 ≤ w) (h_h : 1 ≤ h) (h_high : 0 < frame.height) :
    Largest w h frame (fitSize (w / h : ℚ) frame) := by
  have h_w' : (0 : ℚ) < w := Nat.cast_pos.mpr h_w
  have h_h' : (0 : ℚ) < h := Nat.cast_pos.mpr h_h
  have h_target : (0 : ℚ) < w / h := div_pos h_w' h_h'
  unfold fitSize
  split
  · next h_wide =>
    have h_fits : frame.height * (w / h : ℚ) ≤ frame.width := by
      rw [mul_comm]
      exact ((lt_div_iff₀ h_high).mp h_wide).le
    refine ⟨by field_simp, ⟨h_fits, le_rfl⟩, fun other h_other h_in => ⟨?_, h_in.height⟩⟩
    -- no other size is higher, and the width goes with the height
    have h_width : other.width = other.height * (w / h : ℚ) := by
      rw [← mul_div_assoc, eq_div_iff h_h'.ne', h_other]
    rw [h_width]
    exact mul_le_mul_of_nonneg_right h_in.height h_target.le
  · next h_not =>
    have h_fits : frame.width / (w / h : ℚ) ≤ frame.height := by
      rw [div_le_iff₀ h_target, mul_comm]
      exact (div_le_iff₀ h_high).mp (not_lt.mp h_not)
    refine ⟨by field_simp, ⟨le_rfl, h_fits⟩, fun other h_other h_in => ⟨h_in.width, ?_⟩⟩
    -- no other size is wider, and the height goes with the width
    have h_height : other.height = other.width / (w / h : ℚ) := by
      rw [eq_div_iff h_target.ne', ← mul_div_assoc, div_eq_iff h_h'.ne', h_other]
    rw [h_height]
    exact div_le_div_of_nonneg_right h_in.width h_target.le

theorem fitSize_nonneg {target : ℚ} (h_target : 0 ≤ target) (h_wide : 0 ≤ frame.width)
    (h_high : 0 ≤ frame.height) : (fitSize target frame).Nonneg := by
  unfold fitSize
  split
  · exact ⟨mul_nonneg h_high h_target, h_high⟩
  · exact ⟨h_wide, div_nonneg h_wide h_target⟩

/-- One side of the largest size is that of the frame. -/
theorem fitSize_spans (target : ℚ) (frame : Size .video ℚ) :
    (fitSize target frame).width = frame.width ∨ (fitSize target frame).height = frame.height := by
  unfold fitSize
  split
  · exact Or.inr rfl
  · exact Or.inl rfl

/-! ### The crop -/

theorem fitCrop_fixed (w h : ℕ) (frame : Size .video ℚ) :
    (fixed w h).fitCrop frame =
      { x := roundMilli ((frame.width - (fitSize (w / h : ℚ) frame).width) / 2)
        y := roundMilli ((frame.height - (fitSize (w / h : ℚ) frame).height) / 2)
        width := roundMilli (fitSize (w / h : ℚ) frame).width
        height := roundMilli (fitSize (w / h : ℚ) frame).height } := by
  have h_two : (2.0 : ℚ) = 2 := by norm_num
  rw [← h_two]
  rfl

/-- **Each axis of the crop** is one of the largest size in the middle of the frame. -/
theorem fitCrop_centredSides (h_w : 1 ≤ w) (h_h : 1 ≤ h) (h_width : IsMilli frame.width)
    (h_height : IsMilli frame.height) (h_wide : 0 < frame.width) (h_high : 0 < frame.height) :
    let c : Crop ℚ := (fixed w h).fitCrop frame
    CentredSide frame.width (fitSize (w / h : ℚ) frame).width c.x c.width ∧
      CentredSide frame.height (fitSize (w / h : ℚ) frame).height c.y c.height := by
  have h_fits := (largest_fitSize h_w h_h h_high).fits
  have h_nonneg := fitSize_nonneg (by positivity : (0 : ℚ) ≤ w / h) h_wide.le h_high.le
  rw [fitCrop_fixed]
  exact ⟨.rounded h_width h_nonneg.width h_fits.width,
    .rounded h_height h_nonneg.height h_fits.height⟩

/-- A corner locks the size of a frame to that of the crop. -/
theorem lock_frame_of_isCorner {handle : EdgeHandle} (h_corner : handle.isCorner = true) (w h : ℕ)
    (frame : Size .video ℚ) :
    (fixed w h).lock handle frame =
      ⟨((fixed w h).fitCrop frame).width, ((fixed w h).fitCrop frame).height⟩ := by
  cases handle with
  | n | e | s | w => exact absurd h_corner (by decide)
  | ne | se | sw | nw => rfl

/-- **The largest crop of a ratio in the middle of a frame**, up to rounding: it lies in the frame
and spans it in one direction, no side is off by more than half a thousandth, and its midpoint is
within a thousandth of that of the frame. -/
structure Fitted (w h : ℕ) (frame : Size .video ℚ) (c : Crop ℚ) : Prop where
  zero_le_x : 0 ≤ c.x
  zero_le_y : 0 ≤ c.y
  zero_le_width : 0 ≤ c.width
  zero_le_height : 0 ≤ c.height
  right_le : c.right ≤ frame.width
  bottom_le : c.bottom ≤ frame.height
  spans : c.width = frame.width ∨ c.height = frame.height
  near_largest : ∃ size, Largest w h frame size ∧
    |c.width - size.width| ≤ 1 / 2000 ∧ |c.height - size.height| ≤ 1 / 2000
  near_center_x : |c.center.x - frame.width / 2| ≤ 1 / 1000
  near_center_y : |c.center.y - frame.height / 2| ≤ 1 / 1000

/-- **The largest crop of every ratio is found** in every frame with sides in thousandths. A lock
that is held at a corner gives the frame the same size. -/
theorem fitCrop_fitted (h_w : 1 ≤ w) (h_h : 1 ≤ h) (h_width : IsMilli frame.width)
    (h_height : IsMilli frame.height) (h_wide : 0 < frame.width) (h_high : 0 < frame.height) :
    Fitted w h frame ((fixed w h).fitCrop frame) ∧
      ∀ handle : EdgeHandle, handle.isCorner = true →
        (fixed w h).lock handle frame =
          ⟨((fixed w h).fitCrop frame).width, ((fixed w h).fitCrop frame).height⟩ := by
  refine ⟨?_, fun handle h_corner => lock_frame_of_isCorner h_corner w h frame⟩
  obtain ⟨h_x, h_y⟩ := fitCrop_centredSides h_w h_h h_width h_height h_wide h_high
  have h_two : (2.0 : ℚ) = 2 := by norm_num
  refine ⟨h_x.zero_le, h_y.zero_le, h_x.length_nonneg, h_y.length_nonneg, h_x.end_le, h_y.end_le,
    ?_, ⟨_, largest_fitSize h_w h_h h_high, h_x.near, h_y.near⟩, ?_, ?_⟩
  · rw [fitCrop_fixed]
    -- a side of the frame is in thousandths already
    rcases fitSize_spans (w / h : ℚ) frame with h_eq | h_eq
    · refine Or.inl ?_
      rw [h_eq, roundMilli_eq_self h_width]
    · refine Or.inr ?_
      rw [h_eq, roundMilli_eq_self h_height]
  · rw [Crop.center, h_two]
    exact h_x.abs_center_sub_le
  · rw [Crop.center, h_two]
    exact h_y.abs_center_sub_le

/-- The place and the width are both rounded up, by so much that the crop ends where the frame
does. -/
theorem fitCrop_fitted_of_round_up :
    ∃ c : Crop ℚ, (fixed 50003 50005).fitCrop ⟨10.002, 10.001⟩ = c ∧
      IsMilli 10.002 ∧ IsMilli 10.001 ∧ c = ⟨0.001, 0, 10.001, 10.001⟩ ∧ c.right = 10.002 ∧
      Fitted 50003 50005 ⟨10.002, 10.001⟩ c ∧
      (fixed 50003 50005).lock .nw ⟨10.002, 10.001⟩ = ⟨c.width, c.height⟩ := by
  have h_width : IsMilli 10.002 := ⟨10002, by norm_num⟩
  have h_height : IsMilli 10.001 := ⟨10001, by norm_num⟩
  have h_wide : (0 : ℚ) < 10.002 := by norm_num
  have h_high : (0 : ℚ) < 10.001 := by norm_num
  have h_w : 1 ≤ 50003 := by norm_num
  have h_h : 1 ≤ 50005 := by norm_num
  have h_corner : EdgeHandle.nw.isCorner = true := rfl
  -- the width, `10.0006`, is rounded up
  obtain ⟨h_fitted, h_lock⟩ : Fitted 50003 50005 ⟨10.002, 10.001⟩ _ ∧ _ :=
    fitCrop_fitted h_w h_h h_width h_height h_wide h_high
  exact ⟨_, rfl, h_width, h_height, by decide +kernel, by decide +kernel, h_fitted,
    h_lock .nw h_corner⟩

end AspectRatio

end ClipEdit
