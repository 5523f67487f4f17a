import ClipEdit.Proofs.Overlay.Resize

/-!
# The edges that a resize moves

Without a locked ratio the two axes of a crop do not touch each other, and what a resize does can be
said of one axis at a time: an interval with a near and a far end inside the side of the frame
(`Crop.Axis`). A handle moves one end of it, or neither.

`Crop.Follows` is what is expected of an axis. An end that the handle does not move stays exactly
where it was. One that it moves goes where it is dragged, as far as the other end, the minimum and
the frame allow, and is off by no more than half a thousandth, since sizes are rounded.

* `Axis.draggedSide_back`, `Axis.draggedSide_front` — the side that is dragged out reaches from the
  end that stays to the clamped position, exactly;
* `Axis.follows` — so the side that is settled does, but for rounding;
* `Framed.resized_of_free` — nothing that comes after the settling changes anything: the side is
  long enough and it fits;
* `resized_follows` — both axes of a crop.
-/

namespace ClipEdit

open Scalar Exact

/-- No handle moves two opposite edges. -/
theorem EdgeHandle.not_opposite (handle : EdgeHandle) :
    ¬ (handle.hasWest ∧ handle.hasEast) ∧ ¬ (handle.hasNorth ∧ handle.hasSouth) :=
  ⟨fun ⟨h_west, h_east⟩ => not_hasWest_of_hasEast h_east h_west,
    fun ⟨h_north, h_south⟩ => not_hasNorth_of_hasSouth h_south h_north⟩

namespace Crop

/-! ### One axis -/

/-- **An axis that follows the pointer.** The handle moves the near end if `back`, the far end if
`front`, by the distance `d`; the ends come to be `near'` and `far'`. -/
structure Follows (near far extent d : ℚ) (back front : Bool) (near' far' : ℚ) : Prop where
  near_held : ¬ back → near' = near
  far_held : ¬ front → far' = far
  /-- The near end stays inside the frame and away from the far one. -/
  near_moved : back → |near' - max 0 (min (near + d) (far - 10))| ≤ 1 / 2000
  /-- The far end stays away from the near one and inside the frame. -/
  far_moved : front → |far' - max (near + 10) (min (far + d) extent)| ≤ 1 / 2000

/-- The side that a handle drags out of an axis, before anything is rounded. -/
def draggedSide (near far extent d : ℚ) (back front : Bool) : ℚ :=
  atLeast ((if front then atMost (far + d) extent else far) -
    (if back then atLeast (near + d) 0 else near)) minSize

theorem ten_le_draggedSide (near far extent d : ℚ) (back front : Bool) :
    10 ≤ draggedSide near far extent d back front := by
  rw [draggedSide, atLeast_eq_max, minSize_eq]
  exact le_max_right _ _

namespace Axis

variable {near far extent d : ℚ} {back front : Bool}

/-- A near end that is dragged goes as far as the frame and the minimum let it. -/
theorem draggedSide_back (h : Axis near far extent) (d : ℚ) :
    draggedSide near far extent d true false = far - max 0 (min (near + d) (far - 10)) := by
  have h_far : 0 ≤ far - 10 := by linarith [h.zero_le_near, h.near_add_le_far]
  -- a length that is raised to the minimum is a position that is lowered
  have h_flip : max (far - max (near + d) 0) 10 = far - min (max (near + d) 0) (far - 10) := by
    rcases le_total (max (near + d) 0) (far - 10) with h_le | h_ge
    · rw [min_eq_left h_le, max_eq_left (by linarith)]
    · rw [min_eq_right h_ge, max_eq_right (by linarith)]
      ring
  rw [draggedSide, if_pos rfl, if_neg Bool.false_ne_true, atLeast_eq_max, atLeast_eq_max, minSize_eq,
    h_flip, max_comm (near + d) 0, max_min_distrib_left 0, max_eq_right h_far]

/-- Likewise a far end. -/
theorem draggedSide_front (near far extent d : ℚ) :
    draggedSide near far extent d false true = max (near + 10) (min (far + d) extent) - near := by
  rw [draggedSide, if_pos rfl, if_neg Bool.false_ne_true, atLeast_eq_max, atMost_eq_min, minSize_eq]
  rcases le_total (near + 10) (min (far + d) extent) with h_le | h_ge
  · rw [max_eq_right h_le, max_eq_left (by linarith)]
  · rw [max_eq_left h_ge, max_eq_right (by linarith)]
    ring

/-- An axis that no handle moves keeps its length, which is not below the minimum. -/
theorem draggedSide_none (h : Axis near far extent) (d : ℚ) :
    draggedSide near far extent d false false = far - near := by
  rw [draggedSide, if_neg Bool.false_ne_true, if_neg Bool.false_ne_true, atLeast_eq_max, minSize_eq]
  exact max_eq_left (by linarith [h.near_add_le_far])

/-- Whatever is dragged out fits between the end that stays and the frame. -/
theorem draggedSide_le (h : Axis near far extent) (d : ℚ) (h_one : ¬ (back ∧ front)) :
    draggedSide near far extent d back front ≤ if back then far else extent - near := by
  have h_length := h.near_add_le_far
  have h_extent := h.far_le
  cases back <;> cases front
  -- a handle moves one of the two edges of an axis, or neither
  case true.true => exact absurd ⟨rfl, rfl⟩ h_one
  case true.false =>
    rw [h.draggedSide_back, if_pos rfl]
    -- the near edge moves, and not below zero
    have h_zero := le_max_left 0 (min (near + d) (far - 10))
    linarith
  case false.true =>
    rw [draggedSide_front, if_neg Bool.false_ne_true]
    -- the far edge moves, and not past the extent
    have h_le : max (near + 10) (min (far + d) extent) ≤ extent :=
      max_le (h_length.trans h_extent) (min_le_right _ _)
    linarith
  case false.false =>
    rw [h.draggedSide_none, if_neg Bool.false_ne_true]
    linarith

/-- The same once it is rounded: the room of an axis is in thousandths. -/
theorem roundMilli_draggedSide_le (h : Axis near far extent) (d : ℚ) (h_one : ¬ (back ∧ front)) :
    roundMilli (draggedSide near far extent d back front) ≤
      if back then far else extent - near :=
  roundMilli_le (h.room_isMilli back) (h.draggedSide_le d h_one)

/-- A side that fits lies in the frame where it was placed. -/
theorem anchor_held {side : ℚ} (h : Axis near far extent)
    (h_fits : side ≤ if back then far else extent - near) :
    min (if back then far - side else near) (extent - side) = if back then far - side else near := by
  have h_extent := h.far_le
  apply min_eq_left
  cases back
  · rw [if_neg Bool.false_ne_true] at h_fits ⊢
    linarith
  · rw [if_pos rfl]
    linarith

/-- **An axis follows the pointer.** The settled side is measured from the end that stays, so this
end is met exactly, and the other one is as far off as the side is from what was dragged out. -/
theorem follows (h : Axis near far extent) (d : ℚ) (h_one : ¬ (back ∧ front)) :
    let side := roundMilli (draggedSide near far extent d back front)
    let near' := if back then far - side else near
    Follows near far extent d back front near' (near' + side) := by
  intro side near'
  cases back <;> cases front
  case true.true => exact absurd ⟨rfl, rfl⟩ h_one
  case true.false =>
    refine ⟨fun h_not => absurd rfl h_not, fun _ => sub_add_cancel far side, fun _ => ?_, by simp⟩
    -- the far end stands, and the near one is as far off its place as the side was rounded
    have h_side : side = roundMilli (far - max 0 (min (near + d) (far - 10))) :=
      congrArg roundMilli (h.draggedSide_back d)
    have h_error := abs_roundMilli_sub_le (far - max 0 (min (near + d) (far - 10)))
    rw [← h_side, abs_sub_comm] at h_error
    have h_eq : far - side - max 0 (min (near + d) (far - 10))
        = far - max 0 (min (near + d) (far - 10)) - side := sub_right_comm _ _ _
    exact h_eq ▸ h_error
  case false.true =>
    refine ⟨fun _ => rfl, fun h_not => absurd rfl h_not, by simp, fun _ => ?_⟩
    -- the near end stands, and the far one is as far off its place as the side was rounded
    have h_side : side = roundMilli (max (near + 10) (min (far + d) extent) - near) :=
      congrArg roundMilli (draggedSide_front near far extent d)
    have h_error := abs_roundMilli_sub_le (max (near + 10) (min (far + d) extent) - near)
    rw [← h_side] at h_error
    have h_eq : near + side - max (near + 10) (min (far + d) extent)
        = side - (max (near + 10) (min (far + d) extent) - near) := by ring
    exact h_eq ▸ h_error
  case false.false =>
    refine ⟨fun _ => rfl, fun _ => ?_, by simp, by simp⟩
    -- both ends are in thousandths, and so is what lies between them
    have h_side : side = far - near := by
      rw [← roundMilli_eq_self (h.far_isMilli.sub h.near_isMilli)]
      exact congrArg roundMilli (h.draggedSide_none d)
    change near + side = far
    rw [h_side]
    ring

end Axis

/-! ### Both axes -/

section Resized

variable {c : Crop ℚ} {ctx : EditContext ℚ}

/-- Without a ratio to keep, a size is settled as it was dragged out, but for rounding. -/
theorem lock_of_free (h_free : ctx.ratio = .free) (handle : EdgeHandle) (size : Size .video ℚ) :
    ctx.ratio.lock handle size = ⟨roundMilli size.width, roundMilli size.height⟩ := by
  rw [h_free]
  rfl

/-- **What a resize without a ratio gives**: the sides that were dragged out, rounded and placed
against the edges that stay. The sides fit, so nothing is shrunk, and they are no shorter than the
minimum, so nothing is raised or moved. -/
theorem Framed.resized_of_free (h_framed : c.Framed ctx.frame) (h_free : ctx.ratio = .free)
    (h_width : Exact.IsMilli ctx.frame.width) (h_height : Exact.IsMilli ctx.frame.height)
    (h_wide : 10 ≤ ctx.frame.width) (h_high : 10 ≤ ctx.frame.height) (handle : EdgeHandle)
    (d : Point .video ℚ) :
    let size := c.draggedSize ctx.frame handle d
    c.resized ctx handle d = c.anchored handle ⟨roundMilli size.width, roundMilli size.height⟩ := by
  intro size
  obtain ⟨h_axis, h_axis'⟩ := h_framed.axes h_width h_height h_wide h_high
  obtain ⟨h_one, h_one'⟩ := handle.not_opposite
  have h_fits : roundMilli size.width ≤ (c.room ctx.frame handle).width :=
    h_axis.roundMilli_draggedSide_le d.x h_one
  have h_fits' : roundMilli size.height ≤ (c.room ctx.frame handle).height :=
    h_axis'.roundMilli_draggedSide_le d.y h_one'
  have h_ten : 10 ≤ roundMilli size.width :=
    le_roundMilli (isMilli_natCast 10) (ten_le_draggedSide _ _ _ _ _ _)
  have h_ten' : 10 ≤ roundMilli size.height :=
    le_roundMilli (isMilli_natCast 10) (ten_le_draggedSide _ _ _ _ _ _)
  have h_size : c.resizedSize ctx handle d = ⟨roundMilli size.width, roundMilli size.height⟩ := by
    rw [resizedSize, lock_of_free h_free, shrinkInto, if_neg]
    rintro (h_out | h_out)
    · exact absurd h_fits (not_le.mpr h_out)
    · exact absurd h_fits' (not_le.mpr h_out)
  rw [h_framed.resized_eq h_width h_height h_wide h_high handle d, h_size]
  -- the sides are not raised, so the position has no reason to give way
  simp only [anchored, max_eq_left h_ten, max_eq_left h_ten']
  rw [h_axis.anchor_held h_fits, h_axis'.anchor_held h_fits']

end Resized

/-- **What a resize without a ratio does to the edges**, for a crop that was in a frame with room for
it and sides in thousandths. Each edge that the handle does not move is exactly where it was, and
each edge that it moves is within half a thousandth of where it was dragged, brought into its range:
the left edge between the frame and ten pixels before the right one, and so on around. -/
theorem resized_follows {c : Crop ℚ} {ctx : EditContext ℚ} (h_free : ctx.ratio = .free)
    (h_fixed : c.constrain ctx.frame = c) (h_width : Exact.IsMilli ctx.frame.width)
    (h_height : Exact.IsMilli ctx.frame.height) (h_wide : 10 ≤ ctx.frame.width)
    (h_high : 10 ≤ ctx.frame.height) (handle : EdgeHandle) (d : Point .video ℚ) :
    Follows c.x c.right ctx.frame.width d.x handle.hasWest handle.hasEast
        (c.resized ctx handle d).x (c.resized ctx handle d).right ∧
      Follows c.y c.bottom ctx.frame.height d.y handle.hasNorth handle.hasSouth
        (c.resized ctx handle d).y (c.resized ctx handle d).bottom := by
  have h_framed : c.Framed ctx.frame := ⟨c, h_fixed⟩
  obtain ⟨h_axis, h_axis'⟩ := h_framed.axes h_width h_height h_wide h_high
  obtain ⟨h_one, h_one'⟩ := handle.not_opposite
  rw [h_framed.resized_of_free h_free h_width h_height h_wide h_high handle d]
  exact ⟨h_axis.follows d.x h_one, h_axis'.follows d.y h_one'⟩

/-- A square of 200 pixels, its upper left corner dragged by a third of a pixel to the right and far
out of the frame at the top. The right and the bottom edge do not move. -/
theorem resized_follows_of_nw :
    ∃ c : Crop ℚ, resized ⟨⟨1920, 1080⟩, .free⟩ .nw ⟨1 / 3, -400⟩ ⟨100, 100, 200, 200⟩ = c ∧
      |c.x - (100 + 1 / 3)| ≤ 1 / 2000 ∧ |c.y - 0| ≤ 1 / 2000 ∧ c.right = 300 ∧ c.bottom = 300 := by
  have h_free : (⟨⟨1920, 1080⟩, .free⟩ : EditContext ℚ).ratio = .free := rfl
  obtain ⟨h_across, h_down⟩ := resized_follows h_free
    (by decide +kernel : (⟨100, 100, 200, 200⟩ : Crop ℚ).constrain ⟨1920, 1080⟩ = _)
    (isMilli_natCast 1920) (isMilli_natCast 1080) (by norm_num) (by norm_num) .nw ⟨1 / 3, -400⟩
  -- the left edge follows, the top one is stopped at zero, and the other two are held
  have h_left : max 0 (min (100 + 1 / 3 : ℚ) (300 - 10)) = 100 + 1 / 3 := by norm_num
  have h_top : max 0 (min (100 + -400 : ℚ) (300 - 10)) = 0 := by norm_num
  have h_edge : (100 : ℚ) + 200 = 300 := by norm_num
  refine ⟨_, rfl, ?_, ?_, ?_, ?_⟩
  · exact h_left ▸ h_edge ▸ h_across.near_moved rfl
  · exact h_top ▸ h_edge ▸ h_down.near_moved rfl
  · exact (h_across.far_held (by decide)).trans h_edge
  · exact (h_down.far_held (by decide)).trans h_edge

end Crop

end ClipEdit
