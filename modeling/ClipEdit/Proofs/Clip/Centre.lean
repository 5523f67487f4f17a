import ClipEdit.Proofs.Clip.Commit
import ClipEdit.Proofs.Overlay.Fit

/-!
# Crops that a ratio puts in the middle

When a ratio is picked for a clip, the largest crop of it in the middle of the frame is found
(`AspectRatio.fitCrop`) and written like any other crop: it is brought into the frame first. A steep
ratio may leave one side of it shorter than a crop is allowed to be, and then that side is raised to
the minimum where it lies (`Crop.raised`). It grows to the right, or downwards, so it does not stay
in the middle.

* `CentredSide.raised_iff` — when it does all the same, one axis at a time: from a place that is no
  farther than that of a side of the minimum in the middle, or in a frame that is hardly longer.
* `AspectRatio.constrain_fitCrop` — what bringing the largest crop into the frame does to it.
* `Clip.Sound.setRatio_stores` — what is written for a ratio is what is shown.

`Clip.Reachable.setRatio_centredIn_iff` puts them together for every clip and ratio.

Everything here is about exact arithmetic.
-/

namespace ClipEdit

open Scalar Exact

/-! ### One axis -/

namespace CentredSide

variable {extent exact position length : ℚ}

theorem length_le (h : CentredSide extent exact position length) : length ≤ extent :=
  le_of_add_le_of_nonneg_right h.end_le h.zero_le

/-- **A side that is raised to the minimum** where it lies is in the middle, up to two thousandths,
exactly if it begins no later than a side of that length does in the middle, or if the frame is
hardly longer than the minimum. -/
theorem raised_iff (h : CentredSide extent exact position length) (h_extent : 10 ≤ extent) :
    |2 * min position (extent - max length 10) + max length 10 - extent| ≤ 2 / 1000 ↔
      extent ≤ 10 + 2 / 1000 ∨ position ≤ (extent - 10) / 2 + 1 / 1000 := by
  obtain ⟨h_lo, h_hi⟩ := abs_le.mp h.balanced
  rcases le_or_gt 10 length with h_ten | h_ten
  · -- nothing is raised, and both sides of the equivalence hold
    have h_place : min position (extent - length) = position :=
      min_eq_left (le_sub_iff_add_le.mpr h.end_le)
    rw [max_eq_left h_ten, h_place]
    exact iff_of_true (abs_le.mpr ⟨by linarith, by linarith⟩) (.inr (by linarith))
  · -- the side grows where it lies or is moved back to the end of the frame
    have h_offset : 2 * min position (extent - 10) + 10 - extent =
        min (2 * position + 10 - extent) (extent - 10) := by
      rcases le_total position (extent - 10) with h_room | h_room
      · rw [min_eq_left h_room, min_eq_left (by linarith)]
      · rw [min_eq_right h_room, min_eq_right (by linarith)]
        ring
    -- it grows towards that end, so it can only be off on that side
    have h_behind : -(2 / 1000) ≤ min (2 * position + 10 - extent) (extent - 10) :=
      le_min (by linarith) (by linarith)
    rw [max_eq_right h_ten.le, h_offset, abs_le, and_iff_right h_behind, min_le_iff, or_comm]
    exact or_congr ⟨fun _ => by linarith, fun _ => by linarith⟩
      ⟨fun _ => by linarith, fun _ => by linarith⟩

/-- Bringing it into the frame raises it to the minimum and moves it back as far as it has to. -/
theorem roundMilli_within (h : CentredSide extent exact position length)
    (h_position : IsMilli position) (h_length : IsMilli length) (h_milli : IsMilli extent)
    (h_extent : 10 ≤ extent) :
    Scalar.roundMilli (within length Crop.minSize extent) = max length 10 ∧
      Scalar.roundMilli (within position 0 (atLeast (extent - max length 10) 0)) =
        min position (extent - max length 10) := by
  have h_raised : IsMilli (max length 10) := h_length.max (isMilli_natCast 10)
  have h_slack : 0 ≤ extent - max length 10 := sub_nonneg.mpr (max_le h.length_le h_extent)
  exact ⟨Crop.roundMilli_within_minSize h_length h.length_le h_extent,
    Crop.roundMilli_within_zero h_position (h_milli.sub h_raised) h.zero_le h_slack⟩

end CentredSide

/-! ### Both axes -/

namespace Crop

/-- **A crop in the middle of a frame**: on each axis there is as much room on the one side of it as
on the other, up to two thousandths. -/
structure CentredIn (frame : Size .video ℚ) (c : Crop ℚ) : Prop where
  x : |2 * c.x + c.width - frame.width| ≤ 2 / 1000
  y : |2 * c.y + c.height - frame.height| ≤ 2 / 1000

/-- The crop with each side raised to the minimum. It stays where it is, but for what would then
reach out of the frame. -/
def raised (frame : Size .video ℚ) (c : Crop ℚ) : Crop ℚ where
  x := min c.x (frame.width - max c.width 10)
  y := min c.y (frame.height - max c.height 10)
  width := max c.width 10
  height := max c.height 10

/-- **A crop that stays in the middle** when its sides are raised to the minimum: on each axis it
begins no later than a side of that length does in the middle, or the frame is hardly longer. -/
structure KeepsMiddle (frame : Size .video ℚ) (c : Crop ℚ) : Prop where
  x : frame.width ≤ 10 + 2 / 1000 ∨ c.x ≤ (frame.width - 10) / 2 + 1 / 1000
  y : frame.height ≤ 10 + 2 / 1000 ∨ c.y ≤ (frame.height - 10) / 2 + 1 / 1000

section Centred

variable {frame size : Size .video ℚ} {c : Crop ℚ}
  (h_x : CentredSide frame.width size.width c.x c.width)
  (h_y : CentredSide frame.height size.height c.y c.height)

include h_x h_y

/-- Two thousandths are more than the roundings come to. -/
theorem CentredIn.of_centredSides : c.CentredIn frame :=
  ⟨h_x.balanced.trans (by norm_num), h_y.balanced.trans (by norm_num)⟩

/-- A crop whose sides are long enough is not changed. -/
theorem raised_eq_self (h_width : 10 ≤ c.width) (h_height : 10 ≤ c.height) :
    c.raised frame = c := by
  rw [raised, max_eq_left h_width, max_eq_left h_height,
    min_eq_left (le_sub_iff_add_le.mpr h_x.end_le), min_eq_left (le_sub_iff_add_le.mpr h_y.end_le)]

theorem centredIn_raised_iff (h_wide : 10 ≤ frame.width) (h_high : 10 ≤ frame.height) :
    (c.raised frame).CentredIn frame ↔ c.KeepsMiddle frame := by
  constructor
  · rintro ⟨h_centred, h_centred'⟩
    exact ⟨(h_x.raised_iff h_wide).mp h_centred, (h_y.raised_iff h_high).mp h_centred'⟩
  · rintro ⟨h_room, h_room'⟩
    exact ⟨(h_x.raised_iff h_wide).mpr h_room, (h_y.raised_iff h_high).mpr h_room'⟩

end Centred

end Crop

namespace AspectRatio

variable {frame : Size .video ℚ} {w h : ℕ}

/-- **What bringing the largest crop into the frame does to it**: its sides are raised. -/
theorem constrain_fitCrop (h_w : 1 ≤ w) (h_h : 1 ≤ h) (h_width : IsMilli frame.width)
    (h_height : IsMilli frame.height) (h_wide : 10 ≤ frame.width) (h_high : 10 ≤ frame.height) :
    ((fixed w h).fitCrop frame).constrain frame = ((fixed w h).fitCrop frame).raised frame := by
  obtain ⟨h_x, h_y⟩ :=
    fitCrop_centredSides h_w h_h h_width h_height (by linarith) (by linarith)
  rw [fitCrop_fixed] at h_x h_y ⊢
  obtain ⟨h_side, h_place⟩ :=
    h_x.roundMilli_within (isMilli_roundMilli _) (isMilli_roundMilli _) h_width h_wide
  obtain ⟨h_side', h_place'⟩ :=
    h_y.roundMilli_within (isMilli_roundMilli _) (isMilli_roundMilli _) h_height h_high
  simp only [Crop.constrain, Crop.raised, h_side, h_side', h_place, h_place']

end AspectRatio

/-! ### Picking a ratio -/

namespace Clip

variable {settings : Settings ℚ} {metadata : Metadata ℚ} {fps w h : ℕ} {c : Clip ℚ} {frame : Frame}

/-- **A fixed ratio writes a crop**, and what is written is shown. -/
theorem Sound.setRatio_stores (h_sound : c.Sound metadata fps) (h_le : frame ≤ c.endFrame) :
    ∃ c', c.setRatio (.fixed w h) frame = .accept c' ∧
      c'.cropAt frame =
        ((AspectRatio.fixed w h).fitCrop metadata.frame).constrain metadata.frame := by
  obtain ⟨t, h_insert, -, h_sample⟩ := h_sound.crop.insert_stores h_le
    (((AspectRatio.fixed w h).fitCrop metadata.frame).constrain metadata.frame)
  refine ⟨{ c with ratio := .fixed w h, crop := t }, ?_, h_sample⟩
  rw [setRatio, if_neg (not_lt.mpr h_le)]
  simp only [AspectRatio.isFree, Bool.false_eq_true, if_false]
  rw [setCrop, h_sound.metadata_eq, h_insert]
  rfl

/-- **When the crop of a ratio is in the middle.** A fixed ratio that is picked at a frame of the
clip is always accepted. What is shown at that frame is the largest crop of the ratio with its sides
raised to the minimum. It is in the middle of the frame exactly if raising them keeps it there; and
if both sides of the largest crop are long enough, it is that crop itself. -/
theorem Reachable.setRatio_centredIn_iff (h_reach : c.Reachable settings metadata fps)
    (h_width : IsMilli metadata.frame.width) (h_height : IsMilli metadata.frame.height)
    (h_wide : 10 ≤ metadata.frame.width) (h_high : 10 ≤ metadata.frame.height) (h_w : 1 ≤ w)
    (h_h : 1 ≤ h) (h_le : frame ≤ c.endFrame) :
    let largest : Crop ℚ := (AspectRatio.fixed w h).fitCrop metadata.frame
    ∃ c', c.setRatio (.fixed w h) frame = .accept c' ∧
      c'.cropAt frame = largest.raised metadata.frame ∧
      ((c'.cropAt frame).CentredIn metadata.frame ↔ largest.KeepsMiddle metadata.frame) ∧
      (10 ≤ largest.width → 10 ≤ largest.height →
        c'.cropAt frame = largest ∧ largest.CentredIn metadata.frame) := by
  -- the largest crop is in the middle; what is stored is that crop with its short sides raised
  obtain ⟨h_x, h_y⟩ :=
    AspectRatio.fitCrop_centredSides h_w h_h h_width h_height (by linarith) (by linarith)
  obtain ⟨c', h_accept, h_shown⟩ := h_reach.sound.setRatio_stores (w := w) (h := h) h_le
  rw [AspectRatio.constrain_fitCrop h_w h_h h_width h_height h_wide h_high] at h_shown
  refine ⟨c', h_accept, h_shown, ?_, fun h_long h_long' => ⟨?_, .of_centredSides h_x h_y⟩⟩
  · rw [h_shown]
    exact Crop.centredIn_raised_iff h_x h_y h_wide h_high
  · rw [h_shown]
    exact Crop.raised_eq_self h_x h_y h_long h_long'

/-- There is a clip of ten seconds with a frame of 1920 by 1080. -/
theorem exists_reachable_hd :
    ∃ c : Clip ℚ, c.Reachable .default ⟨1920, 1080, 10⟩ 30 ∧ 300 ≤ c.endFrame :=
  ⟨loaded ⟨1920, 1080, 10⟩ 30 ⟨10, [⟨0, 10, 1.0, false⟩], [], 0.01, .keepRight⟩,
    ⟨_, [], load_of_valid (by decide +kernel) (by decide) (by decide +kernel), rfl⟩,
    by decide +kernel⟩

/-- At 1:108 the largest crop of that frame is exactly as wide as the smallest crop. -/
theorem setRatio_centredIn_of_minimum :
    ∃ c : Clip ℚ, c.Reachable .default ⟨1920, 1080, 10⟩ 30 ∧ 300 ≤ c.endFrame ∧
      ∃ c', c.setRatio (.fixed 1 108) 300 = .accept c' ∧
        c'.cropAt 300 = ⟨955, 0, 10, 1080⟩ ∧ (c'.cropAt 300).CentredIn ⟨1920, 1080⟩ := by
  obtain ⟨c, h_reach, h_le⟩ := exists_reachable_hd
  obtain ⟨c', h_accept, -, -, h_largest⟩ := h_reach.setRatio_centredIn_iff (w := 1) (h := 108)
    (isMilli_natCast 1920) (isMilli_natCast 1080) (by norm_num [Metadata.frame])
    (by norm_num [Metadata.frame]) le_rfl (by norm_num) h_le
  obtain ⟨h_shown, h_centred⟩ := h_largest (by decide +kernel) (by decide +kernel)
  have h_crop : c'.cropAt 300 = ⟨955, 0, 10, 1080⟩ := by
    rw [h_shown]
    decide +kernel
  exact ⟨c, h_reach, h_le, c', h_accept, h_crop, h_shown ▸ h_centred⟩

/-- At 1:1000 it is 1.08 wide and begins at 959.46. Raised to 10 it ends at 969.46, although in the
middle of the frame it would begin at 955. -/
theorem setRatio_not_centredIn :
    ∃ c : Clip ℚ, c.Reachable .default ⟨1920, 1080, 10⟩ 30 ∧ 0 ≤ c.endFrame ∧
      ∃ c', c.setRatio (.fixed 1 1000) 0 = .accept c' ∧
        c'.cropAt 0 = ⟨959.46, 0, 10, 1080⟩ ∧ ¬ (c'.cropAt 0).CentredIn ⟨1920, 1080⟩ := by
  obtain ⟨c, h_reach, -⟩ := exists_reachable_hd
  obtain ⟨c', h_accept, h_shown⟩ :=
    h_reach.sound.setRatio_stores (w := 1) (h := 1000) (Nat.zero_le _)
  have h_crop : c'.cropAt 0 = ⟨959.46, 0, 10, 1080⟩ := by
    rw [h_shown]
    decide +kernel
  -- the left side would have to be `955`, and `959.46` is farther off than a thousandth
  refine ⟨c, h_reach, Nat.zero_le _, c', h_accept, h_crop, ?_⟩
  rw [h_crop]
  rintro ⟨h_off, -⟩
  norm_num at h_off

end Clip

end ClipEdit
