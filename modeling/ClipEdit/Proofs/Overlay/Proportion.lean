import ClipEdit.Proofs.Overlay.Resize
import Mathlib.Tactic.Positivity

/-!
# Proportions under a locked ratio

A locked ratio is imposed on a size that is then rounded, shrunk where it has outgrown its room,
rounded again, and raised to the minimum at last. `Size.OffBy target slack` keeps account of how far
the size has come away from the proportion on the way: as far as it would if each of its sides were
off by `slack`.

* `AspectRatio.offBy_lock` — the lock itself is exact, and its rounding costs half a thousandth;
* `Size.OffBy.shrinkInto` — shrinking takes both sides down by one factor, so it takes the error
  down with them, and costs another half for its own rounding;
* `Crop.resized_proportional` — the two halves are all there is, for every handle and every
  distance, unless a side comes out at the minimum. It may have been raised there, without the other
  one.
-/

namespace ClipEdit

open Scalar Exact

/-! ### How far a size is off -/

namespace Size

variable {size room : Size .video ℚ} {target slack : ℚ}

/-- **A size that keeps a proportion, but for an error of `slack` on each side.** The width is to be
`target` times the height, so an error of the height counts `target` times. -/
def OffBy (target slack : ℚ) (size : Size .video ℚ) : Prop :=
  |size.width - target * size.height| ≤ slack * (1 + target)

/-- Rounding adds half a thousandth for each side. -/
theorem OffBy.roundMilli (h : size.OffBy target slack) (h_target : 0 ≤ target) :
    OffBy target (slack + 1 / 2000) ⟨roundMilli size.width, roundMilli size.height⟩ := by
  have h_width := abs_roundMilli_sub_le size.width
  have h_height := abs_roundMilli_sub_le size.height
  -- from the rounded width to the width, to the multiple of the height, to that of the rounded one
  have h_split : Scalar.roundMilli size.width - target * Scalar.roundMilli size.height =
      (Scalar.roundMilli size.width - size.width) + (size.width - target * size.height) +
        -(target * (Scalar.roundMilli size.height - size.height)) := by ring
  have h_last : |-(target * (Scalar.roundMilli size.height - size.height))| ≤
      target * (1 / 2000) := by
    rw [abs_neg, abs_mul, abs_of_nonneg h_target]
    exact mul_le_mul_of_nonneg_left h_height h_target
  change |Scalar.roundMilli size.width - target * Scalar.roundMilli size.height| ≤ _
  calc |Scalar.roundMilli size.width - target * Scalar.roundMilli size.height|
      ≤ |Scalar.roundMilli size.width - size.width| + |size.width - target * size.height| +
          |-(target * (Scalar.roundMilli size.height - size.height))| := by
        rw [h_split]
        exact abs_add_three _ _ _
    _ ≤ 1 / 2000 + slack * (1 + target) + target * (1 / 2000) :=
        add_le_add (add_le_add h_width h) h_last
    _ = (slack + 1 / 2000) * (1 + target) := by ring

/-- A size that is scaled down as a whole is no farther off than before. -/
theorem OffBy.scale {factor : ℚ} (h : size.OffBy target slack) (h_nonneg : 0 ≤ factor)
    (h_le_one : factor ≤ 1) : OffBy target slack ⟨size.width * factor, size.height * factor⟩ := by
  have h_eq : size.width * factor - target * (size.height * factor) =
      factor * (size.width - target * size.height) := by ring
  change |size.width * factor - target * (size.height * factor)| ≤ _
  rw [h_eq, abs_mul, abs_of_nonneg h_nonneg]
  calc factor * |size.width - target * size.height|
      ≤ 1 * |size.width - target * size.height| :=
        mul_le_mul_of_nonneg_right h_le_one (abs_nonneg _)
    _ = |size.width - target * size.height| := one_mul _
    _ ≤ slack * (1 + target) := h

theorem OffBy.mono {slack' : ℚ} (h : size.OffBy target slack) (h_target : 0 ≤ target)
    (h_le : slack ≤ slack') : size.OffBy target slack' :=
  le_trans h (mul_le_mul_of_nonneg_right h_le (by positivity))

/-- **The factor that a size is shrunk by** is none that turns it over or makes it larger, since one
of its sides exceeds the room. -/
theorem shrinkFactor_mem (h_room : room.Nonneg) (h_size : size.Nonneg)
    (h_exceeds : room.width < size.width ∨ room.height < size.height) :
    0 ≤ atMost (room.width / size.width) (room.height / size.height) ∧
      atMost (room.width / size.width) (room.height / size.height) ≤ 1 := by
  rw [atMost_eq_min]
  constructor
  · exact le_min (div_nonneg h_room.width h_size.width) (div_nonneg h_room.height h_size.height)
  · rcases h_exceeds with h_wide | h_high
    · exact min_le_of_left_le (div_le_one_of_le₀ h_wide.le h_size.width)
    · exact min_le_of_right_le (div_le_one_of_le₀ h_high.le h_size.height)

/-- **Shrinking a size costs its rounding and no more.** -/
theorem OffBy.shrinkInto (h : size.OffBy target slack) (h_target : 0 ≤ target)
    (h_room : room.Nonneg) (h_size : size.Nonneg) :
    (Crop.shrinkInto room size).OffBy target (slack + 1 / 2000) := by
  unfold Crop.shrinkInto
  split
  · next h_exceeds =>
    obtain ⟨h_nonneg, h_le_one⟩ := shrinkFactor_mem h_room h_size h_exceeds
    exact (h.scale h_nonneg h_le_one).roundMilli h_target
  · -- a size that fits is left alone
    exact h.mono h_target (by linarith)

end Size

/-! ### The lock -/

namespace AspectRatio

variable {ratio : AspectRatio} {target : ℚ}

/-- **The lock keeps the proportion**, but for rounding. Whichever side it keeps, it makes the other
one the exact multiple. -/
theorem offBy_lock (h_value : ratio.value = some target) (h_target : 0 < target)
    (handle : EdgeHandle) (size : Size .video ℚ) :
    (ratio.lock handle size).OffBy target (1 / 2000) := by
  have h_wide : Size.OffBy target 0 ⟨size.height * target, size.height⟩ := by
    change |size.height * target - target * size.height| ≤ _
    rw [mul_comm, sub_self, abs_zero, zero_mul]
  have h_high : Size.OffBy target 0 ⟨size.width, size.width / target⟩ := by
    change |size.width - target * (size.width / target)| ≤ _
    rw [mul_div_cancel₀ size.width h_target.ne', sub_self, abs_zero, zero_mul]
  have h_wide' := h_wide.roundMilli h_target.le
  have h_high' := h_high.roundMilli h_target.le
  rw [zero_add] at h_wide' h_high'
  unfold lock
  rw [h_value]
  dsimp only
  -- the handle, and for a corner the size, only decide which side is kept
  split_ifs
  · exact h_high'
  · exact h_wide'
  · exact h_wide'
  · exact h_high'

end AspectRatio

/-! ### The resize -/

namespace Crop

variable {c : Crop ℚ} {ctx : EditContext ℚ}

/-- The size that a resize settles, before anything is raised to the minimum. -/
theorem offBy_resizedSize {target : ℚ} (h_value : ctx.ratio.value = some target)
    (h_target : 0 < target) {handle : EdgeHandle} (h_room : (c.room ctx.frame handle).Nonneg)
    (d : Point .video ℚ) : (c.resizedSize ctx handle d).OffBy target (1 / 1000) := by
  have h_lock := AspectRatio.offBy_lock h_value h_target handle (c.draggedSize ctx.frame handle d)
  have h_nonneg := ctx.ratio.lock_nonneg handle (draggedSize_nonneg ctx.frame handle d c)
  have h_halves : (1 / 1000 : ℚ) = 1 / 2000 + 1 / 2000 := by norm_num
  rw [h_halves]
  exact h_lock.shrinkInto h_target.le h_room h_nonneg

/-- **A resize keeps a locked ratio**, for a crop that was in a frame with room for it and sides in
thousandths. If no side of the result is at the minimum, the sides are in the proportion of the
ratio but for a thousandth on each of them, also where the lock made a side outgrow the frame and
both were shrunk. -/
theorem resized_proportional {w h : ℕ} (h_ratio : ctx.ratio = .fixed w h) (h_w : 1 ≤ w)
    (h_h : 1 ≤ h) (h_fixed : c.constrain ctx.frame = c) (h_width : Exact.IsMilli ctx.frame.width)
    (h_height : Exact.IsMilli ctx.frame.height) (h_wide : 10 ≤ ctx.frame.width)
    (h_high : 10 ≤ ctx.frame.height) (handle : EdgeHandle) (d : Point .video ℚ)
    (h_above : 10 < (c.resized ctx handle d).width)
    (h_above' : 10 < (c.resized ctx handle d).height) :
    |(c.resized ctx handle d).width - (w / h : ℚ) * (c.resized ctx handle d).height| ≤
      1 / 1000 * (1 + w / h) := by
  have h_framed : c.Framed ctx.frame := ⟨c, h_fixed⟩
  obtain ⟨h_axis, h_axis'⟩ := h_framed.axes h_width h_height h_wide h_high
  have h_value : ctx.ratio.value = some (w / h : ℚ) := by
    rw [h_ratio]
    rfl
  have h_target : (0 : ℚ) < w / h := by
    have h_w' : (0 : ℚ) < w := Nat.cast_pos.mpr h_w
    have h_h' : (0 : ℚ) < h := Nat.cast_pos.mpr h_h
    exact div_pos h_w' h_h'
  have h_off := offBy_resizedSize h_value h_target
    (⟨h_axis.room_nonneg handle.hasWest, h_axis'.room_nonneg handle.hasNorth⟩ :
      (c.room ctx.frame handle).Nonneg) d
  -- a side above the minimum is the side that was settled
  rw [h_framed.resized_eq h_width h_height h_wide h_high handle d] at h_above h_above' ⊢
  have h_kept : max (c.resizedSize ctx handle d).width 10 = (c.resizedSize ctx handle d).width :=
    max_eq_left ((lt_max_iff.mp h_above).resolve_right (lt_irrefl _)).le
  have h_kept' : max (c.resizedSize ctx handle d).height 10 = (c.resizedSize ctx handle d).height :=
    max_eq_left ((lt_max_iff.mp h_above').resolve_right (lt_irrefl _)).le
  dsimp only
  rw [h_kept, h_kept']
  exact h_off

/-- A square of 200 pixels at 16:9, its right edge dragged far out of the frame. The lock makes it
1920 wide and 1080 high, which is 100 too much below its upper edge, so both sides are shrunk. -/
theorem resized_proportional_of_shrunk :
    ∃ c : Crop ℚ, resized ⟨⟨1920, 1080⟩, .fixed 16 9⟩ .e ⟨5000, 0⟩ ⟨0, 100, 200, 200⟩ = c ∧
      10 < c.width ∧ c.height = 980 ∧ c.width ≠ 16 / 9 * c.height ∧
      |c.width - 16 / 9 * c.height| ≤ 1 / 1000 * (1 + 16 / 9) := by
  have h_above : 10 < (resized ⟨⟨1920, 1080⟩, .fixed 16 9⟩ .e ⟨5000, 0⟩ ⟨0, 100, 200, 200⟩ :
      Crop ℚ).width := by decide +kernel
  have h_above' : 10 < (resized ⟨⟨1920, 1080⟩, .fixed 16 9⟩ .e ⟨5000, 0⟩ ⟨0, 100, 200, 200⟩ :
      Crop ℚ).height := by decide +kernel
  have h_ratio : (⟨⟨1920, 1080⟩, .fixed 16 9⟩ : EditContext ℚ).ratio = .fixed 16 9 := rfl
  -- the frame leaves `980` below the crop, so both sides are shrunk to that and rounded
  have h_near := resized_proportional h_ratio (by decide) (by decide)
    (by decide +kernel : (⟨0, 100, 200, 200⟩ : Crop ℚ).constrain ⟨1920, 1080⟩ = _)
    (isMilli_natCast 1920) (isMilli_natCast 1080) (by norm_num) (by norm_num) .e ⟨5000, 0⟩
    h_above h_above'
  exact ⟨_, rfl, h_above, by decide +kernel, by decide +kernel, h_near⟩

end Crop

end ClipEdit
