import ClipEdit.Proofs.Scalar.Nearly
import ClipEdit.Proofs.Timeline.Frames
import ClipEdit.Track.Basic

/-!
# Times that land on frames

The time of a frame is a quotient that is rounded, and the frame of a time is found from a product
that is rounded again. A keyframe is looked up by time only if that product is within
`frameTolerance` of a whole number. So the time of a frame has to lead back to the frame although two
operations were rounded on the way, and a third one where the distance is measured.

It does, by a narrow margin. Each operation is off by `2^-53` of its result, so the product is off by
`2^-52` of the frame and a little more. For the largest frame this is just below `2^-20`, or `0.954`
millionths, and the tolerance is one millionth (`RoundedOnce.abs_product_sub_le`).

Nothing else is needed of the three operations, so this is proved for all scalars that can count
frames and round once in each of them (`RoundedOnce`). Binary64 numbers do
(`Binary64.roundedOnce_float`): the quotient and the product of frames and frame rates are never so
small that bits are missing, and a difference is exact where they are.
-/

namespace ClipEdit

open Scalar Gauge

/-- **A frame whose time is rounded once in each operation**: the quotient that is its time, the
product that leads back from it, and the distance of that product from a whole number. -/
structure RoundedOnce (α : Type) [Scalar α] [Gauge α] (frame : Frame) (fps : Nat) : Prop where
  quotient : Nearly ((frame : ℚ) / fps) ((frame : α) / (fps : α))
  product : Nearly (value (frame.toTime fps : α) * fps) ((frame.toTime fps : α) * (fps : α))
  difference :
    Nearly (value ((frame.toTime fps : α) * (fps : α))
        - value (roundWhole ((frame.toTime fps : α) * (fps : α))))
      ((frame.toTime fps : α) * (fps : α) - roundWhole ((frame.toTime fps : α) * (fps : α)))

/-! ### The error -/

section Error

variable {frame time product rate offset distance tolerance : ℚ}

/-- A quotient that is rounded, times its divisor, is near what was divided. -/
theorem abs_mul_sub_le (h_rate : 0 < rate) (h_frame : 0 ≤ frame)
    (h_time : |time - frame / rate| ≤ |frame / rate| / 2 ^ 53) :
    |time * rate - frame| ≤ frame / 2 ^ 53 := by
  have h_split : time * rate - frame = (time - frame / rate) * rate := by
    field_simp
  have h_quotient : 0 ≤ frame / rate := div_nonneg h_frame h_rate.le
  rw [abs_of_nonneg h_quotient] at h_time
  calc |time * rate - frame| = |time - frame / rate| * rate := by
        rw [h_split, abs_mul, abs_of_pos h_rate]
    _ ≤ frame / rate / 2 ^ 53 * rate := mul_le_mul_of_nonneg_right h_time h_rate.le
    _ = frame / 2 ^ 53 := by field_simp

/-- **The product that leads back is within `2^-20` of the frame.** -/
theorem abs_sub_le_of_two_roundings (h_rate : 0 < rate) (h_frame : 0 ≤ frame)
    (h_limit : frame ≤ 4294967295) (h_time : |time - frame / rate| ≤ |frame / rate| / 2 ^ 53)
    (h_product : |product - time * rate| ≤ |time * rate| / 2 ^ 53) :
    |product - frame| ≤ 1 / 2 ^ 20 := by
  have h_back := abs_mul_sub_le h_rate h_frame h_time
  -- the second error is a part of the rounded quotient, and not of the exact one
  have h_size : |time * rate| ≤ frame + frame / 2 ^ 53 := by
    have h_sum := abs_add_le (time * rate - frame) frame
    rw [sub_add_cancel, abs_of_nonneg h_frame] at h_sum
    linarith
  calc |product - frame| ≤ |product - time * rate| + |time * rate - frame| := abs_sub_le _ _ _
    _ ≤ (frame + frame / 2 ^ 53) / 2 ^ 53 + frame / 2 ^ 53 := by
        refine add_le_add (h_product.trans ?_) h_back
        exact div_le_div_of_nonneg_right h_size (by norm_num)
    _ ≤ 1 / 2 ^ 20 := by linarith

/-- A distance that is rounded once more is still below a millionth that is rounded itself. -/
theorem abs_lt_of_three_roundings (h_offset : |offset| ≤ 1 / 2 ^ 20)
    (h_distance : |distance - offset| ≤ |offset| / 2 ^ 53)
    (h_tolerance : |tolerance - 1 / 10 ^ 6| ≤ |1 / 10 ^ 6| / 2 ^ 53) : |distance| < tolerance := by
  have h_least : 1 / 10 ^ 6 - 1 / 10 ^ 6 / 2 ^ 53 ≤ tolerance := by
    have h_low := (abs_le.mp h_tolerance).1
    rw [abs_of_pos (by norm_num)] at h_low
    linarith
  have h_sum := abs_add_le (distance - offset) offset
  rw [sub_add_cancel] at h_sum
  calc |distance| ≤ 1 / 2 ^ 20 / 2 ^ 53 + 1 / 2 ^ 20 := by
        refine h_sum.trans (add_le_add (h_distance.trans ?_) h_offset)
        exact div_le_div_of_nonneg_right h_offset (by norm_num)
    _ < 1 / 10 ^ 6 - 1 / 10 ^ 6 / 2 ^ 53 := by norm_num
    _ ≤ tolerance := h_least

end Error

namespace RoundedOnce

variable {α : Type} [Scalar α] [Counting α] {frame : Frame} {fps : Nat}

/-- The time of a frame is nearly what it should be. -/
theorem nearly_toTime (h : RoundedOnce α frame fps) (h_fps : 1 ≤ fps) :
    Nearly ((frame : ℚ) / fps) (frame.toTime fps : α) := by
  rw [Frame.toTime, if_neg (by omega)]
  exact h.quotient

/-- The product that leads back is within `2^-20` of the frame. -/
theorem abs_product_sub_le (h : RoundedOnce α frame fps) (h_frame : frame ≤ Frame.limit)
    (h_fps : 1 ≤ fps) :
    |value ((frame.toTime fps : α) * (fps : α)) - frame| ≤ 1 / 2 ^ 20 := by
  have h_rate : (0 : ℚ) < fps := by exact_mod_cast h_fps
  have h_limit : (frame : ℚ) ≤ 4294967295 := by exact_mod_cast h_frame
  exact abs_sub_le_of_two_roundings h_rate (Nat.cast_nonneg frame) h_limit
    (h.nearly_toTime h_fps).abs_sub_le h.product.abs_sub_le

/-- The whole number nearest to the product is the frame. -/
theorem roundWhole_product (h : RoundedOnce α frame fps) (h_frame : frame ≤ Frame.limit)
    (h_fps : 1 ≤ fps) :
    isFinite (roundWhole ((frame.toTime fps : α) * (fps : α))) = true ∧
      value (roundWhole ((frame.toTime fps : α) * (fps : α))) = frame := by
  obtain ⟨h_fin, h_value⟩ := Counting.roundWhole_exact h.product.isFinite
  have h_near := h.abs_product_sub_le h_frame h_fps
  refine ⟨h_fin, h_value.trans (Exact.roundWhole_eq_natCast (h_near.trans_lt ?_))⟩
  norm_num

/-- The frame of that number is the frame. -/
theorem toFrame_product (h : RoundedOnce α frame fps) (h_frame : frame ≤ Frame.limit)
    (h_fps : 1 ≤ fps) : toFrame (roundWhole ((frame.toTime fps : α) * (fps : α))) = frame := by
  obtain ⟨h_fin, h_value⟩ := h.roundWhole_product h_frame h_fps
  rw [Counting.toFrame_exact h_fin, h_value, Exact.toFrame_natCast h_frame]

/-- **The time of a frame leads back to the frame.** -/
theorem ofTime_toTime (h : RoundedOnce α frame fps) (h_frame : frame ≤ Frame.limit)
    (h_fps : 1 ≤ fps) : Frame.ofTime (frame.toTime fps : α) fps = frame := by
  have h_time := h.nearly_toTime h_fps
  rw [Frame.ofTime]
  split
  · next h_not =>
    -- only the first frame has a time that is not positive
    have h_le : (frame.toTime fps : α) ≤ 0 := by simpa [h_time.isFinite] using h_not
    have h_value := value_le_of_le h_le
    rw [value_zero] at h_value
    rcases Nat.eq_zero_or_pos frame with h_zero | h_pos
    · exact h_zero.symm
    · have h_quotient : (0 : ℚ) < (frame : ℚ) / fps :=
        div_pos (by exact_mod_cast h_pos) (by exact_mod_cast h_fps)
      obtain ⟨h_half, -⟩ := h_time.value_mem h_quotient.le
      exact absurd h_value (by linarith)
  · exact h.toFrame_product h_frame h_fps

/-- **The time of a frame finds the keyframe there**, if there is one. -/
theorem valueAt?_toTime {V : Type} (h : RoundedOnce α frame fps) (h_frame : frame ≤ Frame.limit)
    (h_fps : 1 ≤ fps) (t : Track V) :
    t.valueAt? (frame.toTime fps : α) fps = t.get? frame := by
  obtain ⟨h_fin, h_value⟩ := h.roundWhole_product h_frame h_fps
  have h_near := h.abs_product_sub_le h_frame h_fps
  have h_nonneg : ¬ roundWhole ((frame.toTime fps : α) * (fps : α)) < 0 := by
    intro h_neg
    have h_lt := value_lt_of_lt h_neg
    rw [h_value, value_zero] at h_lt
    exact absurd h_lt (not_lt.mpr (Nat.cast_nonneg frame))
  have h_close : ¬ Track.frameTolerance < magnitude ((frame.toTime fps : α) * (fps : α)
      - roundWhole ((frame.toTime fps : α) * (fps : α))) := by
    intro h_far
    have h_lt := value_lt_of_lt h_far
    have h_distance := h.difference.abs_sub_le
    rw [h_value] at h_distance
    rw [value_magnitude] at h_lt
    have h_tolerance := (Counting.nearly_millionth (α := α)).abs_sub_le
    exact absurd h_lt (abs_lt_of_three_roundings h_near h_distance h_tolerance).not_gt
  -- neither of the two reasons to find nothing is there
  rw [Track.valueAt?]
  simp only [h_nonneg, h_close, or_self, if_false]
  rw [h.toFrame_product h_frame h_fps]

end RoundedOnce

/-! ### Binary64 numbers -/

namespace Binary64

open Float.Model Float.Model.UnpackedFloat

variable {frame : Frame} {fps : Nat}

/-- What is not below a small part of a frame has all its bits, unless it is zero. -/
theorem eq_zero_or_leastFull_le {q : ℚ} (h_part : (frame : ℚ) / 2 ^ 33 ≤ q)
    (h_zero : frame = 0 → q = 0) : q = 0 ∨ leastFull ≤ |q| := by
  rcases Nat.eq_zero_or_pos frame with h_first | h_later
  · exact Or.inl (h_zero h_first)
  · have h_one : (1 : ℚ) ≤ frame := by exact_mod_cast h_later
    refine Or.inr ?_
    calc leastFull ≤ 1 / 2 ^ 33 := leastFull_le
      _ ≤ frame / 2 ^ 33 := div_le_div_of_nonneg_right h_one (by norm_num)
      _ ≤ q := h_part
      _ ≤ |q| := le_abs_self q

/-- The time of a frame is rounded once. -/
theorem nearly_quotient (h_frame : frame ≤ Frame.limit) (h_fps : 1 ≤ fps)
    (h_limit : fps ≤ Frame.limit) :
    Nearly ((frame : ℚ) / fps) ((frame : Float) / (fps : Float)) := by
  obtain ⟨h_fin_frame, h_value_frame⟩ := Counting.natCast_exact (α := Float) h_frame
  obtain ⟨h_fin_fps, h_value_fps⟩ := Counting.natCast_exact (α := Float) h_limit
  change value (parts (frame : Float)) = frame at h_value_frame
  change value (parts (fps : Float)) = fps at h_value_fps
  have h_one : (1 : ℚ) ≤ fps := by exact_mod_cast h_fps
  have h_rate : (0 : ℚ) < fps := lt_of_lt_of_le one_pos h_one
  have h_rate_le : (fps : ℚ) ≤ 2 ^ 33 := by exact_mod_cast h_limit.trans (by decide)
  -- the smallest quotient is that of the first frame by the highest rate
  have h_part : (frame : ℚ) / 2 ^ 33 ≤ frame / fps :=
    div_le_div_of_nonneg_left (Nat.cast_nonneg frame) h_rate h_rate_le
  have h_bits : (frame : ℚ) / fps = 0 ∨ leastFull ≤ |(frame : ℚ) / fps| := by
    refine eq_zero_or_leastFull_le h_part ?_
    rintro rfl
    rw [Nat.cast_zero, zero_div]
  have h_div := nearly_div h_fin_frame h_fin_fps (h_one.trans_eq h_value_fps.symm)
    (by rw [h_value_frame, h_value_fps]; exact h_bits)
  rwa [h_value_frame, h_value_fps] at h_div

/-- The time of a frame leads back to at least half of the frame and at most twice as much. -/
theorem time_mul_fps_mem {time : ℚ} (h_fps : 1 ≤ fps)
    (h_time : (frame : ℚ) / fps / 2 ≤ time ∧ time ≤ 2 * ((frame : ℚ) / fps)) :
    (frame : ℚ) / 2 ≤ time * fps ∧ time * fps ≤ 2 * frame := by
  have h_rate : (0 : ℚ) < fps := by exact_mod_cast h_fps
  have h_lo := mul_le_mul_of_nonneg_right h_time.1 h_rate.le
  have h_hi := mul_le_mul_of_nonneg_right h_time.2 h_rate.le
  rw [div_right_comm, div_mul_cancel₀ _ h_rate.ne'] at h_lo
  rw [mul_assoc, div_mul_cancel₀ _ h_rate.ne'] at h_hi
  exact ⟨h_lo, h_hi⟩

/-- The product that leads back is rounded once. -/
theorem nearly_product {time : Float} (h_frame : frame ≤ Frame.limit) (h_fps : 1 ≤ fps)
    (h_limit : fps ≤ Frame.limit) (h_time : Nearly ((frame : ℚ) / fps) time) :
    Nearly (value (parts time) * fps) (time * (fps : Float)) := by
  obtain ⟨h_fin_fps, h_value_fps⟩ := Counting.natCast_exact (α := Float) h_limit
  change value (parts (fps : Float)) = fps at h_value_fps
  have h_frame_le : (frame : ℚ) ≤ 2 ^ 32 := by exact_mod_cast h_frame.trans (by decide)
  -- a time that is off by a half would still keep the product away from both ends of the format
  obtain ⟨h_lo, h_hi⟩ : (frame : ℚ) / 2 ≤ value (parts time) * fps
      ∧ value (parts time) * fps ≤ 2 * frame :=
    time_mul_fps_mem h_fps (h_time.value_mem (by positivity))
  have h_nonneg : 0 ≤ value (parts time) * fps :=
    le_trans (div_nonneg (Nat.cast_nonneg frame) zero_le_two) h_lo
  have h_large : |value (parts time) * fps| ≤ 2 ^ 1023 := by
    rw [abs_of_nonneg h_nonneg]
    calc value (parts time) * fps ≤ 2 ^ 33 := by linarith
      _ ≤ 2 ^ 1023 := pow_le_pow_right₀ one_le_two (by norm_num)
  have h_bits : value (parts time) * fps = 0 ∨ leastFull ≤ |value (parts time) * fps| := by
    have h_part : (frame : ℚ) / 2 ^ 33 ≤ value (parts time) * fps := by linarith
    refine eq_zero_or_leastFull_le h_part ?_
    rintro rfl
    exact le_antisymm (by simpa using h_hi) h_nonneg
  have h_mul := nearly_mul h_time.isFinite h_fin_fps
    (by rw [h_value_fps]; exact h_large) (by rw [h_value_fps]; exact h_bits)
  rwa [h_value_fps] at h_mul

/-- The distance from the nearest whole number is rounded once. -/
theorem nearly_sub_roundWhole {x : Float} (hx : x.isFinite = true) :
    Nearly (value (parts x) - value (parts (roundWhole x))) (x - roundWhole x) := by
  obtain ⟨h_fin, h_value⟩ := roundWhole_exact hx
  refine nearly_sub hx h_fin ?_
  rw [h_value, ← neg_sub, abs_neg]
  calc |Exact.roundWhole (value (parts x)) - value (parts x)| ≤ 1 / 2 :=
        Exact.abs_roundWhole_sub_le _
    _ ≤ 1 := by norm_num
    _ ≤ 2 ^ 1023 := one_le_pow₀ one_le_two

/-- **Each of the three operations is rounded once** to the nearest binary64 number. None of them
leaves the finite numbers, and where one is too small to have all its bits it is exact. -/
theorem roundedOnce_float (h_frame : frame ≤ Frame.limit) (h_fps : 1 ≤ fps)
    (h_limit : fps ≤ Frame.limit) : RoundedOnce Float frame fps := by
  have h_quotient := nearly_quotient h_frame h_fps h_limit
  have h_time : Nearly ((frame : ℚ) / fps) (frame.toTime fps : Float) := by
    rw [Frame.toTime, if_neg (by omega)]
    exact h_quotient
  have h_product := nearly_product h_frame h_fps h_limit h_time
  exact ⟨h_quotient, h_product, nearly_sub_roundWhole h_product.isFinite⟩

end Binary64

/-! ### Every frame lands -/

/-- **Every frame lands on itself.** Where each of the three operations rounds once, the time of a
frame leads back to the frame and finds the keyframe there, at every frame rate and in every track.
Binary64 numbers round so, for all frames and frame rates. -/
theorem frames_land :
    (∀ (α : Type) [Scalar α] [Counting α] (frame : Frame) (fps : Nat), frame ≤ Frame.limit →
      1 ≤ fps → RoundedOnce α frame fps →
        Frame.ofTime (frame.toTime fps : α) fps = frame ∧
          ∀ (V : Type) (t : Track V), t.valueAt? (frame.toTime fps : α) fps = t.get? frame) ∧
    ∀ (frame : Frame) (fps : Nat), frame ≤ Frame.limit → 1 ≤ fps → fps ≤ Frame.limit →
      RoundedOnce Float frame fps := by
  constructor
  · intro α _ _ frame fps h_frame h_fps h_rounded
    refine ⟨h_rounded.ofTime_toTime h_frame h_fps, ?_⟩
    intro V t
    exact h_rounded.valueAt?_toTime h_frame h_fps t
  · intro frame fps h_frame h_fps h_limit
    exact Binary64.roundedOnce_float h_frame h_fps h_limit

/-- The largest frame, where the margin is smallest: at 60 frames a second its time leads back to it,
and finds the permanent keyframe of a track that ends there. -/
theorem frames_land_of_largest :
    Frame.limit ≤ Frame.limit ∧ 1 ≤ 60 ∧ 60 ≤ Frame.limit ∧
      RoundedOnce Float Frame.limit 60 ∧
      Frame.ofTime (Frame.limit.toTime 60 : Float) 60 = Frame.limit ∧
      (Track.create 7 Frame.limit).valueAt? (Frame.limit.toTime 60 : Float) 60 = some 7 := by
  have h_frame : Frame.limit ≤ Frame.limit := le_rfl
  have h_fps : 1 ≤ 60 := by norm_num
  have h_limit : 60 ≤ Frame.limit := by decide
  have h_rounded : RoundedOnce Float Frame.limit 60 :=
    frames_land.2 Frame.limit 60 h_frame h_fps h_limit
  obtain ⟨h_back, h_found⟩ := frames_land.1 Float Frame.limit 60 h_frame h_fps h_rounded
  exact ⟨h_frame, h_fps, h_limit, h_rounded, h_back, h_found Nat (Track.create 7 Frame.limit)⟩

end ClipEdit
