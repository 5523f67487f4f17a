import ClipEdit.Proofs.Scalar.Frame
import ClipEdit.Timeline.TimeMap

/-!
# Frames and times

A frame has a time, and a time has a nearest frame. In exact arithmetic the nearest frame of a time
is the frame of the rounded product, for times before the clip too (`Frame.ofTime_eq`). So it never
falls as time goes on (`Frame.monotone_ofTime`), and that of the time of a frame is the frame itself,
up to the largest one that there is (`Frame.ofTime_toTime`).
-/

namespace ClipEdit

open Scalar

namespace Frame

variable {frame : Frame} {fps : Nat}

/-- The frame of a time is that of the rounded product, for a time before the clip as well. -/
theorem ofTime_eq (time : ℚ) (fps : Nat) :
    Frame.ofTime time fps = Exact.toFrame (Exact.roundWhole (time * fps)) := by
  rw [Frame.ofTime]
  split
  · next h_not =>
    have h_time : time ≤ 0 := by simpa [isFinite] using h_not
    have h_product : time * fps ≤ 0 := mul_nonpos_of_nonpos_of_nonneg h_time (Nat.cast_nonneg fps)
    exact (Exact.toFrame_of_nonpos (Exact.roundWhole_nonpos h_product)).symm
  · rfl

/-- **A later time has no earlier frame.** -/
theorem monotone_ofTime (fps : Nat) : Monotone fun time : ℚ => Frame.ofTime time fps := by
  intro time time' h
  simp only [ofTime_eq]
  have h_product := mul_le_mul_of_nonneg_right h (Nat.cast_nonneg (α := ℚ) fps)
  exact Exact.monotone_toFrame (Exact.monotone_roundWhole h_product)

theorem ofTime_le_limit (time : ℚ) (fps : Nat) : Frame.ofTime time fps ≤ Frame.limit := by
  rw [ofTime_eq]
  exact Exact.toFrame_le_limit _

/-- **The frame of the time of a frame** is the frame itself. -/
theorem ofTime_toTime (h_fps : fps ≠ 0) (h : frame ≤ Frame.limit) :
    Frame.ofTime (frame.toTime fps : ℚ) fps = frame := by
  have h_cast : (fps : ℚ) ≠ 0 := Nat.cast_ne_zero.mpr h_fps
  have h_time : (frame.toTime fps : ℚ) * fps = frame := by
    rw [Frame.toTime, if_neg h_fps]
    exact div_mul_cancel₀ _ h_cast
  rw [ofTime_eq, h_time]
  have h_whole : Exact.roundWhole (frame : ℚ) = frame := by
    exact_mod_cast Exact.roundWhole_intCast frame
  rw [h_whole, Exact.toFrame_natCast h]

end Frame

end ClipEdit
