import ClipEdit.Overlay.Reshape
import ClipEdit.Proofs.Overlay.Constrain

/-!
# The edges that a resize leaves alone

A resize moves one edge of a crop, or two that meet in a corner, and is meant to hold on to the
edges opposite. It settles the size first (`Crop.resizedSize`): dragged, locked to the ratio, shrunk
into the room that the frame has on the side of the handle. Then it places a crop of that size
against the edges that stay (`Crop.anchored`), and at last brings the result into the frame.

For a crop that was in the frame to begin with, in a frame with room for it and sides in
thousandths, the last step has little left to do. The size is in thousandths and fits its room
(`Crop.resizedSize_isMilli`, `Crop.resizedSize_fits`), so all that can still happen is that a side
below the minimum is raised to it and the position gives way by as much (`Crop.resized_eq`). This
decides which edges are held:

* the left edge under an eastern handle and the top edge under a southern one always are;
* the right edge under a western handle and the bottom edge under a northern one are not when a
  locked ratio has made their side smaller than the minimum, unless they lie on the frame. The side
  is raised after it was placed, so it grows past the edge that was to be held.

`Crop.resized_opposite_edges` says both, and `Crop.bottom_resized_ne` is a crop that loses its
bottom edge in this way.
-/

namespace ClipEdit

open Scalar Exact

/-! ### Sizes -/

namespace Size

variable {size room : Size .video ℚ}

/-- Both sides in thousandths. -/
structure IsMilli (size : Size .video ℚ) : Prop where
  width : Exact.IsMilli size.width
  height : Exact.IsMilli size.height

/-- Neither side below zero. -/
structure Nonneg (size : Size .video ℚ) : Prop where
  width : 0 ≤ size.width
  height : 0 ≤ size.height

/-- Neither side longer than that of the room. -/
structure Fits (size room : Size .video ℚ) : Prop where
  width : size.width ≤ room.width
  height : size.height ≤ room.height

end Size

namespace EdgeHandle

theorem not_hasWest_of_hasEast {handle : EdgeHandle} (h : handle.hasEast) : ¬ handle.hasWest := by
  cases handle <;> simp_all [hasEast, hasWest]

theorem not_hasNorth_of_hasSouth {handle : EdgeHandle} (h : handle.hasSouth) :
    ¬ handle.hasNorth := by
  cases handle <;> simp_all [hasSouth, hasNorth]

end EdgeHandle

namespace AspectRatio

variable {ratio : AspectRatio} {target : ℚ}

theorem value_nonneg (h : ratio.value = some target) : 0 ≤ target := by
  cases ratio with
  | free => exact absurd h (by simp [value])
  | fixed w h' =>
    obtain rfl : (w : ℚ) / (h' : ℚ) = target := Option.some.inj h
    positivity

theorem lock_isMilli (ratio : AspectRatio) (handle : EdgeHandle) (size : Size .video ℚ) :
    (ratio.lock handle size).IsMilli :=
  ⟨isMilli_roundMilli _, isMilli_roundMilli _⟩

theorem lock_nonneg (ratio : AspectRatio) (handle : EdgeHandle) {size : Size .video ℚ}
    (h : size.Nonneg) : (ratio.lock handle size).Nonneg := by
  obtain ⟨h_width, h_height⟩ := h
  unfold lock
  cases h_value : (ratio.value : Option ℚ) with
  | none => exact ⟨le_roundMilli isMilli_zero h_width, le_roundMilli isMilli_zero h_height⟩
  | some target =>
    have h_target := value_nonneg h_value
    -- one side is kept and the other one is a multiple of it, whatever the handle
    have h_wide : 0 ≤ size.height * target := mul_nonneg h_height h_target
    have h_high : 0 ≤ size.width / target := div_nonneg h_width h_target
    dsimp only
    split_ifs <;> exact ⟨le_roundMilli isMilli_zero ‹_›, le_roundMilli isMilli_zero ‹_›⟩

end AspectRatio

namespace Crop

variable {c : Crop ℚ} {frame room size : Size .video ℚ}

theorem draggedSize_nonneg (frame : Size .video ℚ) (handle : EdgeHandle) (d : Point .video ℚ)
    (c : Crop ℚ) : (c.draggedSize frame handle d).Nonneg := by
  have h_side : ∀ side : ℚ, 0 ≤ atLeast side minSize := by
    intro side
    rw [atLeast_eq_max, minSize_eq]
    exact le_max_of_le_right (by norm_num)
  exact ⟨h_side _, h_side _⟩

theorem shrinkInto_isMilli (h : size.IsMilli) (room : Size .video ℚ) :
    (shrinkInto room size).IsMilli := by
  unfold shrinkInto
  split
  · exact ⟨isMilli_roundMilli _, isMilli_roundMilli _⟩
  · exact h

/-- A side that is scaled down at least as far as its room requires. -/
theorem roundMilli_mul_le {side room factor : ℚ} (h_room : Exact.IsMilli room) (h_nonneg : 0 ≤ room)
    (h_side : 0 ≤ side) (h_factor : factor ≤ room / side) : roundMilli (side * factor) ≤ room := by
  refine roundMilli_le h_room ?_
  rcases h_side.eq_or_lt with rfl | h_pos
  · rwa [zero_mul]
  · calc side * factor ≤ side * (room / side) := mul_le_mul_of_nonneg_left h_factor h_side
      _ = room := mul_div_cancel₀ room h_pos.ne'

theorem shrinkInto_fits (h_room : room.IsMilli) (h_nonneg : room.Nonneg) (h_size : size.Nonneg) :
    (shrinkInto room size).Fits room := by
  unfold shrinkInto
  split
  · -- the common factor is the smaller one of the two that the sides ask for
    rw [atMost_eq_min]
    exact ⟨roundMilli_mul_le h_room.width h_nonneg.width h_size.width (min_le_left _ _),
      roundMilli_mul_le h_room.height h_nonneg.height h_size.height (min_le_right _ _)⟩
  · next h =>
    obtain ⟨h_width, h_height⟩ := not_or.mp h
    exact ⟨not_lt.mp h_width, not_lt.mp h_height⟩

theorem resizedSize_isMilli (ctx : EditContext ℚ) (handle : EdgeHandle) (d : Point .video ℚ)
    (c : Crop ℚ) : (c.resizedSize ctx handle d).IsMilli :=
  shrinkInto_isMilli (ctx.ratio.lock_isMilli handle _) _

theorem resizedSize_fits {ctx : EditContext ℚ} {handle : EdgeHandle}
    (h_room : (c.room ctx.frame handle).IsMilli) (h_nonneg : (c.room ctx.frame handle).Nonneg)
    (d : Point .video ℚ) : (c.resizedSize ctx handle d).Fits (c.room ctx.frame handle) :=
  shrinkInto_fits h_room h_nonneg (ctx.ratio.lock_nonneg handle (draggedSize_nonneg _ _ _ _))

/-! ### Into the frame -/

/-- A side in thousandths that the frame has room for: only the minimum can change it. -/
theorem roundMilli_within_minSize {side extent : ℚ} (h_side : Exact.IsMilli side)
    (h_le : side ≤ extent) (h_extent : 10 ≤ extent) :
    roundMilli (within side minSize extent) = max side 10 := by
  rw [within_eq, minSize_eq, min_eq_left (max_le h_le h_extent)]
  exact roundMilli_eq_self (h_side.max (isMilli_natCast 10))

/-- A position in thousandths: only the room that the size leaves can change it. -/
theorem roundMilli_within_zero {position slack : ℚ} (h_position : Exact.IsMilli position)
    (h_slack : Exact.IsMilli slack) (h_position_nonneg : 0 ≤ position) (h_slack_nonneg : 0 ≤ slack) :
    roundMilli (within position 0 (atLeast slack 0)) = min position slack := by
  rw [atLeast_eq_max, max_eq_left h_slack_nonneg, within_eq, max_eq_left h_position_nonneg]
  exact roundMilli_eq_self (h_position.min h_slack)

/-! ### One axis -/

/-- **One axis of a crop in the frame**: an interval inside the side of the frame, no shorter than
the minimum, with everything in thousandths. -/
structure Axis (near far extent : ℚ) : Prop where
  near_isMilli : Exact.IsMilli near
  far_isMilli : Exact.IsMilli far
  extent_isMilli : Exact.IsMilli extent
  zero_le_near : 0 ≤ near
  near_add_le_far : near + 10 ≤ far
  far_le : far ≤ extent

namespace Axis

variable {near far extent side : ℚ}

/-- The room of an axis, measured from the end that stays: `back` tells that it is the far one. -/
theorem room_isMilli (h : Axis near far extent) (back : Bool) :
    Exact.IsMilli (if back then far else extent - near) := by
  split
  · exact h.far_isMilli
  · exact h.extent_isMilli.sub h.near_isMilli

theorem room_nonneg (h : Axis near far extent) (back : Bool) :
    0 ≤ if back then far else extent - near := by
  obtain ⟨-, -, -, h_near, h_length, h_far⟩ := h
  split <;> linarith

theorem room_le (h : Axis near far extent) (back : Bool) :
    (if back then far else extent - near) ≤ extent := by
  obtain ⟨-, -, -, h_near, h_length, h_far⟩ := h
  split <;> linarith

theorem ten_le_extent (h : Axis near far extent) : 10 ≤ extent := by
  obtain ⟨-, -, -, h_near, h_length, h_far⟩ := h
  linarith

/-- A side placed against the end that stays and brought into the frame. -/
theorem roundMilli_within_anchor (h : Axis near far extent) (back : Bool)
    (h_side : Exact.IsMilli side) (h_fits : side ≤ if back then far else extent - near) :
    roundMilli (within (if back then far - side else near) 0 (atLeast (extent - max side 10) 0)) =
      min (if back then far - side else near) (extent - max side 10) := by
  have h_raised : Exact.IsMilli (max side 10) := h_side.max (isMilli_natCast 10)
  have h_slack : 0 ≤ extent - max side 10 :=
    sub_nonneg.mpr (max_le (h_fits.trans (h.room_le back)) h.ten_le_extent)
  -- the anchor is not below zero, so the room is all that can hold it back
  refine roundMilli_within_zero ?_ (h.extent_isMilli.sub h_raised) ?_ h_slack
  · split
    · exact h.far_isMilli.sub h_side
    · exact h.near_isMilli
  · split
    · next h_back => exact sub_nonneg.mpr (by rwa [if_pos h_back] at h_fits)
    · exact h.zero_le_near

/-- **The near end is held** by whatever fits behind it: the interval was no shorter than the
minimum, so there is room for a side that is raised to it. -/
theorem near_held (h : Axis near far extent) (h_fits : side ≤ extent - near) :
    min near (extent - max side 10) = near := by
  obtain ⟨-, -, -, h_near, h_length, h_far⟩ := h
  refine min_eq_left (le_sub_comm.mp (max_le h_fits ?_))
  linarith

/-- **The far end is held** by a side that needs no raising. One that does grows past it, and comes
to rest only where the frame ends. -/
theorem far_held_iff (h : Axis near far extent) :
    min (far - side) (extent - max side 10) + max side 10 = far ↔ 10 ≤ side ∨ far = extent := by
  have h_far := h.far_le
  rcases le_or_gt 10 side with h_ten | h_ten
  · -- nothing is raised, and the side ends where it was placed
    rw [max_eq_left h_ten, min_eq_left (by linarith)]
    exact iff_of_true (by ring) (.inl h_ten)
  · rw [max_eq_right h_ten.le]
    constructor
    · intro h_eq
      rcases min_choice (far - side) (extent - 10) with h_min | h_min
      · rw [h_min] at h_eq
        exact absurd h_eq (by linarith)
      · rw [h_min] at h_eq
        exact .inr (by linarith)
    · rintro (h_le | rfl)
      · exact absurd h_le (not_le.mpr h_ten)
      · rw [min_eq_right (by linarith)]
        ring

end Axis

/-! ### Both axes -/

theorem Framed.axes (h : c.Framed frame) (h_width : Exact.IsMilli frame.width)
    (h_height : Exact.IsMilli frame.height) (h_wide : 10 ≤ frame.width)
    (h_high : 10 ≤ frame.height) :
    Axis c.x c.right frame.width ∧ Axis c.y c.bottom frame.height := by
  obtain ⟨h_x, h_y, h_cw, h_ch⟩ := h.isMilli
  obtain ⟨h_left, h_top, h_min, h_min', h_right, h_bottom⟩ :=
    h.inside h_width h_height h_wide h_high
  constructor
  · exact ⟨h_x, h_x.add h_cw, h_width, h_left, add_le_add_right h_min _, h_right⟩
  · exact ⟨h_y, h_y.add h_ch, h_height, h_top, add_le_add_right h_min' _, h_bottom⟩

section Resized

variable {ctx : EditContext ℚ} (h_framed : c.Framed ctx.frame)
  (h_width : Exact.IsMilli ctx.frame.width) (h_height : Exact.IsMilli ctx.frame.height)
  (h_wide : 10 ≤ ctx.frame.width) (h_high : 10 ≤ ctx.frame.height)

include h_framed h_width h_height h_wide h_high

theorem Framed.resizedSize_fits (handle : EdgeHandle) (d : Point .video ℚ) :
    (c.resizedSize ctx handle d).Fits (c.room ctx.frame handle) := by
  obtain ⟨h_axis, h_axis'⟩ := h_framed.axes h_width h_height h_wide h_high
  exact Crop.resizedSize_fits ⟨h_axis.room_isMilli _, h_axis'.room_isMilli _⟩
    ⟨h_axis.room_nonneg _, h_axis'.room_nonneg _⟩ d

/-- **What a resize gives**: the size it settled, raised to the minimum, placed against the edges
that stay as far as the frame allows. -/
theorem Framed.resized_eq (handle : EdgeHandle) (d : Point .video ℚ) :
    c.resized ctx handle d =
      { x := min (c.anchored handle (c.resizedSize ctx handle d)).x
          (ctx.frame.width - max (c.resizedSize ctx handle d).width 10)
        y := min (c.anchored handle (c.resizedSize ctx handle d)).y
          (ctx.frame.height - max (c.resizedSize ctx handle d).height 10)
        width := max (c.resizedSize ctx handle d).width 10
        height := max (c.resizedSize ctx handle d).height 10 } := by
  obtain ⟨h_axis, h_axis'⟩ := h_framed.axes h_width h_height h_wide h_high
  have h_size := resizedSize_isMilli ctx handle d c
  have h_fits := h_framed.resizedSize_fits h_width h_height h_wide h_high handle d
  -- a side that was held to its room is at most the whole extent
  have h_le := h_fits.width.trans (h_axis.room_le _)
  have h_le' := h_fits.height.trans (h_axis'.room_le _)
  simp only [resized, constrain, anchored, roundMilli_within_minSize h_size.width h_le h_wide,
    roundMilli_within_minSize h_size.height h_le' h_high,
    h_axis.roundMilli_within_anchor handle.hasWest h_size.width h_fits.width,
    h_axis'.roundMilli_within_anchor handle.hasNorth h_size.height h_fits.height]

end Resized

/-- **Which edges a resize holds**, for a crop that was in a frame with room for it and sides in
thousandths. Opposite an eastern and a southern handle the edge stays where it was. Opposite a
western and a northern handle it does so exactly when the side that meets it was not settled below
the minimum, or when the edge lies on the frame. -/
theorem resized_opposite_edges (ctx : EditContext ℚ) (h_fixed : c.constrain ctx.frame = c)
    (h_width : Exact.IsMilli ctx.frame.width) (h_height : Exact.IsMilli ctx.frame.height)
    (h_wide : 10 ≤ ctx.frame.width) (h_high : 10 ≤ ctx.frame.height) (handle : EdgeHandle)
    (d : Point .video ℚ) :
    (handle.hasEast → (c.resized ctx handle d).x = c.x) ∧
      (handle.hasSouth → (c.resized ctx handle d).y = c.y) ∧
      (handle.hasWest → ((c.resized ctx handle d).right = c.right ↔
        10 ≤ (c.resizedSize ctx handle d).width ∨ c.right = ctx.frame.width)) ∧
      (handle.hasNorth → ((c.resized ctx handle d).bottom = c.bottom ↔
        10 ≤ (c.resizedSize ctx handle d).height ∨ c.bottom = ctx.frame.height)) := by
  have h_framed : c.Framed ctx.frame := ⟨c, h_fixed⟩
  obtain ⟨h_axis, h_axis'⟩ := h_framed.axes h_width h_height h_wide h_high
  obtain ⟨h_fits, h_fits'⟩ := h_framed.resizedSize_fits h_width h_height h_wide h_high handle d
  have h_eq := h_framed.resized_eq h_width h_height h_wide h_high handle d
  refine ⟨fun h_east => ?_, fun h_south => ?_, fun h_west => ?_, fun h_north => ?_⟩
  · -- a handle that moves the right edge does not move the left one
    have h_west : ¬ handle.hasWest := EdgeHandle.not_hasWest_of_hasEast h_east
    simp only [room, if_neg h_west] at h_fits
    simpa only [h_eq, anchored, if_neg h_west] using h_axis.near_held h_fits
  · have h_north : ¬ handle.hasNorth := EdgeHandle.not_hasNorth_of_hasSouth h_south
    simp only [room, if_neg h_north] at h_fits'
    simpa only [h_eq, anchored, if_neg h_north] using h_axis'.near_held h_fits'
  · simpa only [h_eq, right, anchored, if_pos h_west] using h_axis.far_held_iff
  · simpa only [h_eq, bottom, anchored, if_pos h_north] using h_axis'.far_held_iff

/-- A square of 200 pixels at 16:9, its upper left corner dragged far past the lower right one. The
lock makes it 10 wide and 5.625 high, so the right edge is held and the bottom edge is not. -/
theorem resized_opposite_edges_of_nw :
    (resized ⟨⟨1920, 1080⟩, .fixed 16 9⟩ .nw ⟨1000, 1000⟩ ⟨100, 100, 200, 200⟩ : Crop ℚ).right =
        (⟨100, 100, 200, 200⟩ : Crop ℚ).right ∧
      (resized ⟨⟨1920, 1080⟩, .fixed 16 9⟩ .nw ⟨1000, 1000⟩ ⟨100, 100, 200, 200⟩ : Crop ℚ).bottom ≠
        (⟨100, 100, 200, 200⟩ : Crop ℚ).bottom := by
  obtain ⟨-, -, h_right, h_bottom⟩ := resized_opposite_edges (⟨⟨1920, 1080⟩, .fixed 16 9⟩)
    (by decide +kernel : (⟨100, 100, 200, 200⟩ : Crop ℚ).constrain ⟨1920, 1080⟩ = _)
    (isMilli_natCast 1920) (isMilli_natCast 1080) (by norm_num) (by norm_num) .nw ⟨1000, 1000⟩
  exact ⟨(h_right rfl).mpr (.inl (by decide +kernel)),
    fun h => absurd ((h_bottom rfl).mp h) (by decide +kernel)⟩

/-- The square of before comes to rest with its bottom edge at 304.375: below the 300 where it
was, although the frame goes on to 1080. -/
theorem bottom_resized_ne :
    (⟨100, 100, 200, 200⟩ : Crop ℚ).constrain ⟨1920, 1080⟩ = ⟨100, 100, 200, 200⟩ ∧
      EdgeHandle.nw.hasNorth ∧
      (resized ⟨⟨1920, 1080⟩, .fixed 16 9⟩ .nw ⟨1000, 1000⟩ ⟨100, 100, 200, 200⟩ : Crop ℚ) =
        ⟨290, 294.375, 10, 10⟩ ∧
      (⟨290, 294.375, 10, 10⟩ : Crop ℚ).bottom ≠ (⟨100, 100, 200, 200⟩ : Crop ℚ).bottom := by
  decide +kernel

end Crop

end ClipEdit
