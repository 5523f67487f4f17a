import ClipEdit.Proofs.Scalar.NonNumber
import ClipEdit.Proofs.Scalar.Nearly
import ClipEdit.Proofs.Track.Preview

/-!
# Counts of frames that hit keyframes

The value at a time is looked up by the product of the time and the frame rate, which counts frames
and is seldom whole. `hit?` is that lookup, as a function of the count: the nearest whole number must
not be below zero or too far away, and is then turned into a frame.

Both conditions are refusals, and a comparison that cannot be made refuses nothing. So two kinds of
counts get through that are near no frame. What is no number is neither below zero nor too far away
from itself; it is turned into the first frame. And what is past the last frame there can be is held
to that frame, be it whole or infinite. `Sound.hit?_eq_some_iff` says that these are the only two:
every other count that hits anything lands on a keyframe (`LandsOn`).
-/

namespace ClipEdit

open Scalar Gauge
open Binary64 (parts inFormat_parts)

namespace Track

variable {V : Type} {t : Track V} {x : Float} {v : V} {frame : Frame}

/-! ### Landing on a keyframe -/

/-- The value of the keyframe that a count of frames falls on. -/
def hit? (t : Track V) (x : Float) : Option V :=
  if roundWhole x < 0 ∨ frameTolerance < magnitude (x - roundWhole x) then none
  else t.get? (toFrame (roundWhole x))

theorem valueAt?_eq (t : Track V) (time : Float) (fps : Nat) :
    t.valueAt? time fps = t.hit? (time * (fps : Float)) := rfl

/-- **A count of frames lands on a keyframe** that shows a value: it is within the tolerance of the
frame of the keyframe. -/
def LandsOn (t : Track V) (x : Float) (value : V) : Prop :=
  ∃ frame ∈ t.frames, magnitude (x - (frame : Float)) ≤ frameTolerance ∧ t.get? frame = some value

/-- A keyframe that can be looked up is listed. -/
theorem Sound.mem_frames (h : t.Sound) (h_get : t.get? frame = some v) : frame ∈ t.frames := by
  rw [← map_frame_shown]
  exact List.mem_map_of_mem (h.mem_shown h_get)

/-- Nothing stands at the last frame there can be, unless the track ends there. -/
theorem Sound.get?_limit (h : t.Sound) (h_limit : t.endFrame ≤ Frame.limit) :
    t.get? Frame.limit = some v ↔ t.endFrame = Frame.limit ∧ v = t.endValue := by
  constructor
  · intro h_get
    have h_end : t.endFrame = Frame.limit :=
      le_antisymm h_limit (h.le_endFrame _ (h.mem_frames h_get))
    rw [get?, if_pos h_end.symm, Option.some.injEq] at h_get
    exact ⟨h_end, h_get.symm⟩
  · rintro ⟨h_end, rfl⟩
    rw [get?, if_pos h_end.symm]

theorem value_tolerance_lt : value (frameTolerance : Float) < 1 / 2 := by
  change Binary64.value (parts (1e-6 : Float)) < 1 / 2
  decide +kernel

/-- A distance that is a number is weighed by its value. -/
theorem tolerance_lt_iff (h : IsNumber (magnitude x)) :
    frameTolerance < magnitude x ↔ value (frameTolerance : Float) < |value x| := by
  have h_tolerance : IsNumber (frameTolerance : Float) := isNumber_of_isFinite (by decide)
  rw [← value_magnitude]
  exact ⟨value_lt_of_lt, fun h_lt => lt_iff.mpr ⟨h_tolerance, h, h_lt⟩⟩

/-- **What is near a frame** is finite, and less than half a frame away. -/
theorem near_of_le_tolerance (h_frame : frame ≤ Frame.limit)
    (h : magnitude (x - (frame : Float)) ≤ frameTolerance) :
    isFinite x = true ∧ |value x - frame| < 1 / 2 := by
  obtain ⟨h_fin_frame, h_value_frame⟩ := Counting.natCast_exact (α := Float) h_frame
  obtain ⟨h_number, -, h_le⟩ := le_iff.mp h
  have h_distance : |value (x - (frame : Float))| < 1 / 2 := by
    rw [← value_magnitude]
    exact h_le.trans_lt value_tolerance_lt
  have h_x : isFinite x = true := by
    by_contra h_infinite
    -- an infinity stays as far away as it is
    have h_number_x := (Binary64.isNumber_of_sub (Binary64.isNumber_of_magnitude h_number)).1
    have h_parts := Binary64.parts_sub_of_infinite h_number_x h_infinite h_fin_frame
    obtain ⟨s, h_s⟩ := Binary64.eq_infinity_of_not_isFinite h_number_x h_infinite
    have h_limit : (1 : ℚ) / 2 < |value (x - (frame : Float))| := by
      change 1 / 2 < |Binary64.value (parts (x - (frame : Float)))|
      rw [h_parts, h_s]
      cases s <;> decide +kernel
    exact absurd h_distance h_limit.not_gt
  have h_rounded := Binary64.rounded_sub h_x h_fin_frame
  rw [show Binary64.value (parts (frame : Float)) = frame from h_value_frame] at h_rounded
  obtain ⟨h_lo, h_hi⟩ := abs_lt.mp h_distance
  -- a difference of half a frame or more is not rounded to less than half a frame
  refine ⟨h_x, abs_lt.mpr ⟨?_, ?_⟩⟩
  · by_contra h_not
    have h_half : Binary64.value (parts (-0.5 : Float)) = -(1 / 2) := by decide +kernel
    have h_below := h_rounded.value_le (inFormat_parts (-0.5))
      ((not_lt.mp h_not).trans_eq h_half.symm)
    exact absurd h_lo (h_below.trans_eq h_half).not_gt
  · by_contra h_not
    have h_half : Binary64.value (parts (0.5 : Float)) = 1 / 2 := by decide +kernel
    have h_above := h_rounded.le_value (inFormat_parts 0.5)
      (h_half.trans_le (not_lt.mp h_not))
    exact absurd h_hi (h_half.symm.trans_le h_above).not_gt

/-- **A count whose nearest whole number is a frame** falls on that frame or on none. -/
theorem hit?_of_frame (h_x : isFinite x = true) (h_frame : frame ≤ Frame.limit)
    (h_value : value (roundWhole x) = frame) :
    t.hit? x = if frameTolerance < magnitude (x - (frame : Float)) then none
      else t.get? frame := by
  obtain ⟨h_fin, -⟩ := Counting.roundWhole_exact h_x
  obtain ⟨h_fin_frame, h_value_frame⟩ := Counting.natCast_exact (α := Float) h_frame
  have h_nonneg : (0 : ℚ) ≤ value (roundWhole x) := by
    rw [h_value]
    exact Nat.cast_nonneg frame
  have h_not : ¬ roundWhole x < 0 := by
    refine (Gauge.not_lt (isNumber_of_isFinite h_fin) isNumber_zero).mpr ?_
    refine le_iff.mpr ⟨isNumber_zero, isNumber_of_isFinite h_fin, ?_⟩
    rwa [value_zero]
  -- the whole number is the frame, and only its sign is not known
  have h_difference : value (x - roundWhole x) = value (x - (frame : Float)) :=
    Binary64.value_sub_congr h_x h_fin h_fin_frame h_nonneg (h_value.trans h_value_frame.symm)
  have h_far : frameTolerance < magnitude (x - roundWhole x) ↔
      frameTolerance < magnitude (x - (frame : Float)) := by
    rw [tolerance_lt_iff (isNumber_distance h_x h_fin),
      tolerance_lt_iff (isNumber_distance h_x h_fin_frame), h_difference]
  have h_to : toFrame (roundWhole x) = frame := by
    rw [Counting.toFrame_exact h_fin, h_value, Exact.toFrame_natCast h_frame]
  unfold hit?
  simp only [h_not, h_far, h_to, false_or]

/-- **What is no count at all** is taken for the first frame. -/
theorem Sound.hit?_of_not_isNumber (h : t.Sound) (h_x : ¬ IsNumber x) : t.hit? x = some t.start := by
  have h_round : roundWhole x = x :=
    Binary64.roundWhole_of_not_isFinite fun h_fin => h_x (isNumber_of_isFinite h_fin)
  have h_not : ¬ x < 0 := fun h_neg => h_x (isNumber_left_of_lt h_neg)
  -- too far away from itself it is not, since it has no distance
  have h_close : ¬ frameTolerance < magnitude (x - x) := by
    intro h_far
    have h_number := Binary64.isNumber_of_magnitude (isNumber_right_of_lt h_far)
    exact h_x (Binary64.isNumber_of_sub h_number).1
  unfold hit? get?
  rw [h_round, if_neg (not_or.mpr ⟨h_not, h_close⟩), Binary64.toFrame_of_not_isNumber h_x,
    if_neg h.zero_lt_endFrame.ne, if_pos rfl]

/-- **A count past the last frame there can be** is taken for that frame. -/
theorem hit?_of_past (h_past : (Frame.limit : Float) < roundWhole x) :
    t.hit? x = if frameTolerance < magnitude (x - roundWhole x) then none
      else t.get? Frame.limit := by
  obtain ⟨-, h_value_limit⟩ := Counting.natCast_exact (α := Float) (le_refl Frame.limit)
  obtain ⟨-, h_number, h_lt⟩ := lt_iff.mp h_past
  rw [h_value_limit] at h_lt
  have h_pos : 0 < value (roundWhole x) := (Nat.cast_nonneg _).trans_lt h_lt
  have h_not : ¬ roundWhole x < 0 := by
    intro h_neg
    have h_value := value_lt_of_lt h_neg
    rw [value_zero] at h_value
    exact h_pos.not_gt h_value
  -- a finite number above the limit, or the infinity
  have h_to : toFrame (roundWhole x) = Frame.limit := by
    by_cases h_fin : isFinite (roundWhole x) = true
    · rw [Counting.toFrame_exact h_fin]
      refine le_antisymm (Exact.toFrame_le_limit _) ?_
      calc Frame.limit = Exact.toFrame Frame.limit := (Exact.toFrame_natCast le_rfl).symm
        _ ≤ Exact.toFrame (value (roundWhole x)) := Exact.monotone_toFrame h_lt.le
    · rcases Binary64.infinity_or_finite_of_pos h_pos with h_infinity | ⟨m, e, hm, h_finite⟩
      · exact Binary64.toFrame_of_infinity h_infinity
      · exact absurd (show (parts _).isFinite = true by rw [h_finite]; rfl) h_fin
  unfold hit?
  simp only [h_not, h_to, false_or]

/-- A count that hits anything is near a frame or past all of them, unless it is none. -/
theorem frame_or_past_of_hit? (h_x : IsNumber x) (h_hit : t.hit? x = some v) :
    (∃ frame, isFinite x = true ∧ frame ≤ Frame.limit ∧ value (roundWhole x) = frame) ∨
      (Frame.limit : Float) < roundWhole x := by
  obtain ⟨h_fin_limit, h_value_limit⟩ := Counting.natCast_exact (α := Float) (le_refl Frame.limit)
  -- below zero nothing is found
  have h_not : ¬ roundWhole x < 0 := by
    intro h_neg
    unfold hit? at h_hit
    rw [if_pos (Or.inl h_neg)] at h_hit
    exact absurd h_hit (by simp)
  by_cases h_fin : isFinite x = true
  · obtain ⟨h_fin_round, h_value⟩ := Counting.roundWhole_exact h_fin
    obtain ⟨n, h_n⟩ := Exact.exists_roundWhole_eq (value x)
    rw [h_n] at h_value
    -- a finite time rounds to an integer, and this one is a frame or beyond all of them
    have h_nonneg : (0 : ℚ) ≤ n := by
      have h_le := value_le_of_le
        ((Gauge.not_lt (isNumber_of_isFinite h_fin_round) isNumber_zero).mp h_not)
      rwa [value_zero, h_value] at h_le
    obtain ⟨frame, rfl⟩ := Int.eq_ofNat_of_zero_le (by exact_mod_cast h_nonneg)
    rcases le_or_gt frame Frame.limit with h_le | h_gt
    · exact Or.inl ⟨frame, h_fin, h_le, h_value⟩
    · refine Or.inr (lt_iff.mpr ⟨isNumber_of_isFinite h_fin_limit,
        isNumber_of_isFinite h_fin_round, ?_⟩)
      rw [h_value_limit, h_value]
      exact_mod_cast h_gt
  · -- an infinity that is not below zero
    have h_round : roundWhole x = x := Binary64.roundWhole_of_not_isFinite h_fin
    rw [h_round] at h_not ⊢
    obtain ⟨s, h_s⟩ := Binary64.eq_infinity_of_not_isFinite h_x h_fin
    refine Or.inr (lt_iff.mpr ⟨isNumber_of_isFinite h_fin_limit, h_x, ?_⟩)
    have h_value : value x = Binary64.value (.infinity s) := congrArg Binary64.value h_s
    cases s with
    | negative =>
      refine absurd (lt_iff.mpr ⟨h_x, isNumber_zero, ?_⟩) h_not
      rw [h_value, value_zero]
      exact neg_neg_of_pos Binary64.limit_pos
    | positive =>
      rw [h_value_limit, h_value]
      decide +kernel

/-- **What a count hits.** It lands on a keyframe, or it is no number and hits the first one, or it is
past the last frame there can be and hits the last one, of a track that ends there. -/
theorem Sound.hit?_eq_some_iff (h : t.Sound) (h_limit : t.endFrame ≤ Frame.limit) :
    t.hit? x = some v ↔ t.LandsOn x v ∨ x.isNaN = true ∧ v = t.start ∨
      t.endFrame = Frame.limit ∧ v = t.endValue ∧ (Frame.limit : Float) < roundWhole x ∧
        ¬ frameTolerance < magnitude (x - roundWhole x) := by
  constructor
  · intro h_hit
    by_cases h_x : IsNumber x
    · rcases frame_or_past_of_hit? h_x h_hit with ⟨frame, h_fin, h_frame, h_value⟩ | h_past
      · -- the nearest whole number is a frame, and it was not too far away
        rw [hit?_of_frame h_fin h_frame h_value] at h_hit
        obtain ⟨h_fin_frame, -⟩ := Counting.natCast_exact (α := Float) h_frame
        split at h_hit
        · exact absurd h_hit (by simp)
        · next h_near =>
          have h_distance := isNumber_distance h_fin h_fin_frame
          have h_tolerance : IsNumber (frameTolerance : Float) := isNumber_of_isFinite (by decide)
          exact Or.inl ⟨frame, h.mem_frames h_hit,
            (Gauge.not_lt h_tolerance h_distance).mp h_near, h_hit⟩
      · -- the count is past all frames: what was found stands at the limit
        rw [hit?_of_past h_past] at h_hit
        split at h_hit
        · exact absurd h_hit (by simp)
        · next h_near =>
          obtain ⟨h_end, h_v⟩ := (h.get?_limit h_limit).mp h_hit
          exact Or.inr (Or.inr ⟨h_end, h_v, h_past, h_near⟩)
    · -- the count is no number
      rw [h.hit?_of_not_isNumber h_x, Option.some.injEq] at h_hit
      exact Or.inr (Or.inl ⟨Binary64.isNaN_iff.mpr h_x, h_hit.symm⟩)
  · rintro (⟨frame, h_mem, h_near, h_get⟩ | ⟨h_nan, rfl⟩ | ⟨h_end, h_v, h_past, h_near⟩)
    · -- conversely, what lands near a frame is rounded to that frame
      have h_frame := (h.le_endFrame frame h_mem).trans h_limit
      obtain ⟨h_fin, h_half⟩ := near_of_le_tolerance h_frame h_near
      obtain ⟨-, h_value⟩ := Counting.roundWhole_exact h_fin
      rw [Exact.roundWhole_eq_natCast h_half] at h_value
      obtain ⟨h_number, h_number', -⟩ := le_iff.mp h_near
      rw [hit?_of_frame h_fin h_frame h_value,
        if_neg ((Gauge.not_lt h_number' h_number).mpr h_near), h_get]
    · exact h.hit?_of_not_isNumber (Binary64.isNaN_iff.mp h_nan)
    · rw [hit?_of_past h_past, if_neg h_near]
      exact (h.get?_limit h_limit).mpr ⟨h_end, h_v⟩

end Track

end ClipEdit
