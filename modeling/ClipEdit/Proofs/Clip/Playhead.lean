import ClipEdit.Proofs.Clip.Coherence
import ClipEdit.Proofs.Timeline.Frames
import ClipEdit.Proofs.Timeline.TimeMap

/-!
# The playhead

The playhead stands at a visual time, and the frame under it is the one that is edited. Placing it on
a frame takes the time of the frame through the map, and finding the frame under it takes the way
back and then the nearest frame, held to the last one. `TruePlayhead` says what a user sees of this:

* placed on a frame that the trims leave, the playhead is on that frame;
* moved forwards, it never goes back to an earlier frame;
* wherever it is put, it is on a frame that the trims leave.

All three follow from the map that covers the range of the trims (`Timeline.Sound.covers`) and from
what frames and times have to do with each other (`Frame.ofTime_toTime`, `Frame.monotone_ofTime`). A
frame is never lost on the way to its time and back, since the last frame of a clip is itself the
frame of a time.

Everything here is about exact arithmetic.
-/

namespace ClipEdit

open Scalar

/-- Under validated settings boundaries have to keep some distance in exact arithmetic, too. -/
theorem Settings.zero_lt_boundaryEpsilon_validate_exact (settings : Settings ℚ) :
    0 < settings.validate.boundaryEpsilon :=
  Gauge.lt_of_lt_of_le (by decide +kernel) settings.validate_usable_exact.boundaryEpsilon.1

namespace Clip

variable {c : Clip ℚ} {metadata : Metadata ℚ} {fps : Nat}

/-- **A playhead that stays on its frame**, never goes backwards and never leaves what the trims
leave. -/
structure TruePlayhead (c : Clip ℚ) : Prop where
  visualToFrame_frameToVisual : ∀ frame ≤ c.endFrame,
    c.timeline.trimRange.start ≤ (frame : ℚ) / c.fps →
    (frame : ℚ) / c.fps ≤ c.timeline.trimRange.stop →
    c.visualToFrame (c.frameToVisual frame) = frame
  monotone : Monotone c.visualToFrame
  mem_range : ∀ time,
    min (Frame.ofTime c.timeline.trimRange.start c.fps) c.endFrame ≤ c.visualToFrame time ∧
      c.visualToFrame time ≤ min (Frame.ofTime c.timeline.trimRange.stop c.fps) c.endFrame

/-- The last frame of a clip is a frame. -/
theorem Sound.endFrame_le_limit (h : c.Sound metadata fps) : c.endFrame ≤ Frame.limit := by
  rw [endFrame, h.crop_endFrame]
  exact max_le (Frame.ofTime_le_limit _ _) (by decide)

/-- **The playhead is true** if the map of the clip covers what the trims leave. -/
theorem truePlayhead_of_covers
    (h : c.map.Covers c.timeline.trimRange.start c.timeline.trimRange.stop) (h_fps : c.fps ≠ 0)
    (h_limit : c.endFrame ≤ Frame.limit) : c.TruePlayhead where
  visualToFrame_frameToVisual := by
    intro frame h_last h_start h_stop
    have h_time : (frame.toTime c.fps : ℚ) = (frame : ℚ) / c.fps := if_neg h_fps
    rw [← h_time] at h_start h_stop
    -- the time of the frame comes back from the map, and the frame from its time
    rw [visualToFrame, frameToVisual, TimeMap.visualToFrame, TimeMap.frameToVisual,
      h.toSource_toVisual h_start h_stop, Frame.ofTime_toTime h_fps (h_last.trans h_limit),
      min_eq_left h_last]
  monotone := by
    intro time time' h_le
    exact min_le_min (Frame.monotone_ofTime c.fps (h.monotone_toSource h_le)) le_rfl
  mem_range := by
    intro time
    obtain ⟨h_start, h_stop⟩ := h.toSource_mem time
    exact ⟨min_le_min (Frame.monotone_ofTime c.fps h_start) le_rfl,
      min_le_min (Frame.monotone_ofTime c.fps h_stop) le_rfl⟩

/-- **The playhead of a reachable clip is true**, whatever was cut, trimmed and played faster or
slower. -/
theorem reachable_truePlayhead {settings : Settings ℚ}
    (h : c.Reachable settings.validate metadata fps) : c.TruePlayhead := by
  have h_kept := h.kept settings.zero_lt_boundaryEpsilon_validate_exact
  have h_fps : c.fps ≠ 0 := by
    obtain ⟨c₀, edits, h_ok, -⟩ := h
    rw [h_kept.fps_eq]
    exact (load_eq_ok h_ok).2.1
  refine truePlayhead_of_covers ?_ h_fps h.sound.endFrame_le_limit
  rw [h_kept.map_eq]
  exact h_kept.timeline_sound.covers

/-- Ten seconds without the first four, the rest at double speed. Frame `200` is found again from
where it is shown, the beginning shows frame `120`, and a time far past the end shows frame `300`. -/
theorem reachable_truePlayhead_of_trimmed :
    ∃ c : Clip ℚ, c.Reachable Settings.default.validate ⟨1920, 1080, 10⟩ 30 ∧
      c.timeline.trimRange = ⟨4, 10⟩ ∧ c.frameToVisual 200 = 4 / 3 ∧
      c.visualToFrame (c.frameToVisual 200) = 200 ∧ c.visualToFrame (-1) = 120 ∧
      c.visualToFrame 60 = 300 ∧ c.TruePlayhead := by
  obtain ⟨c, h_c⟩ : ∃ c : Clip ℚ, run (loaded (⟨1920, 1080, 10⟩ : Metadata ℚ) 30
      ⟨10, [⟨0, 10, 1.0, false⟩], [], 0.01, .keepRight⟩)
      [.timeline (.addBoundary 4), .timeline (.setSpeed 1 2), .timeline (.trim 0)] = c := ⟨_, rfl⟩
  have h : c.Reachable Settings.default.validate ⟨1920, 1080, 10⟩ 30 :=
    ⟨_, _, load_of_valid (by decide +kernel) (by decide) (by decide +kernel), h_c⟩
  have h_facts : c.timeline.trimRange = ⟨4, 10⟩ ∧ c.fps = 30 ∧ c.endFrame = 300 ∧
      c.frameToVisual 200 = 4 / 3 ∧ c.visualToFrame (-1) = 120 ∧ c.visualToFrame 60 = 300 := by
    rw [← h_c]
    decide +kernel
  obtain ⟨h_range, h_fps, h_end, h_visual, h_before, h_past⟩ := h_facts
  have h_true := reachable_truePlayhead h
  have h_back := h_true.visualToFrame_frameToVisual 200
  -- frame 200 is at `20/3`, in the range that the trim leaves
  rw [h_range, h_fps, h_end] at h_back
  exact ⟨c, h, h_range, h_visual, h_back (by decide) (by norm_num) (by norm_num), h_before, h_past,
    h_true⟩

end Clip

end ClipEdit
