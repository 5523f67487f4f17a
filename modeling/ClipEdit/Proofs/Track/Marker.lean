import ClipEdit.Proofs.Clip.Refusal
import ClipEdit.Proofs.Track.KeyMap
import ClipEdit.Track.Marker

/-!
# The marker under the pointer

The search for the marker under the pointer goes over all markers once. On the way it leaves out
those that are out of reach and keeps the nearest of the others, the first one where several are
equally near. `Found` says what the search knows of the markers that it has seen; one more marker
keeps it true (`Found.consider`), and so does the rest of the list (`Found.scan`).

What comes out can be said without the search. A marker is under the pointer if it is within reach
and the first of those that are nearest among *all* markers (`FirstNearest`), since a marker that is
out of reach is farther away than any that is not:

* `nearestMarker_eq_none_iff` — there is none on an empty strip, or where all are out of reach;
* `nearestMarker_eq_some_iff` — which one there is otherwise;
* `Sound.markerAt_marker` — the frames of a track ascend, so their markers stand at different
  places, and a pointer that is exactly on one of them is on that one.

Everything here is about exact arithmetic.
-/

namespace ClipEdit

open Scalar

/-- Under validated settings the pointer reaches around every marker. -/
theorem Settings.zero_lt_hitRadiusFraction_validate (settings : Settings ℚ) :
    0 < settings.validate.hitRadiusFraction :=
  Gauge.lt_of_lt_of_le (by decide +kernel) settings.validate_usable_exact.hitRadiusFraction.1

namespace Track

variable {frames seen : List Frame} {distanceOf : Frame → ℚ} {radius : ℚ} {i j : ℕ}
  {frame frame' : Frame} {best : Option (ℕ × ℚ)}

/-! ### The first of the nearest -/

/-- **The first of the nearest frames**, with the index it has in the list: no frame is nearer, and
those in front of it are all farther away. -/
structure FirstNearest (distanceOf : Frame → ℚ) (frames : List Frame) (i : ℕ) (frame : Frame) :
    Prop where
  getElem?_eq : frames[i]? = some frame
  le : ∀ other ∈ frames, distanceOf frame ≤ distanceOf other
  lt : ∀ j other, j < i → frames[j]? = some other → distanceOf frame < distanceOf other

namespace FirstNearest

theorem mem (h : FirstNearest distanceOf frames i frame) : frame ∈ frames :=
  List.mem_of_getElem? h.getElem?_eq

/-- There is only one. -/
theorem index_eq (h : FirstNearest distanceOf frames i frame)
    (h' : FirstNearest distanceOf frames j frame') : i = j := by
  rcases lt_trichotomy i j with h_lt | h_eq | h_gt
  · exact absurd (h'.lt i frame h_lt h.getElem?_eq) (h.le frame' h'.mem).not_gt
  · exact h_eq
  · exact absurd (h.lt j frame' h_gt h'.getElem?_eq) (h'.le frame h.mem).not_gt

/-- It stays the first one when a frame follows that is not nearer. -/
theorem append (h : FirstNearest distanceOf seen i frame)
    (h_le : distanceOf frame ≤ distanceOf frame') :
    FirstNearest distanceOf (seen ++ [frame']) i frame := by
  obtain ⟨h_lt, -⟩ := List.getElem?_eq_some_iff.mp h.getElem?_eq
  refine ⟨?_, ?_, ?_⟩
  · rw [List.getElem?_append_left h_lt, h.getElem?_eq]
  · intro other h_mem
    rcases List.mem_append.mp h_mem with h_seen | h_new
    · exact h.le other h_seen
    · rwa [List.mem_singleton.mp h_new]
  · intro j other h_before h_at
    rw [List.getElem?_append_left (h_before.trans h_lt)] at h_at
    exact h.lt j other h_before h_at

/-- A frame that is nearer than all before it takes its place. -/
theorem concat (h : ∀ other ∈ seen, distanceOf frame < distanceOf other) :
    FirstNearest distanceOf (seen ++ [frame]) seen.length frame := by
  refine ⟨?_, ?_, ?_⟩
  · rw [List.getElem?_concat_length]
  · intro other h_mem
    rcases List.mem_append.mp h_mem with h_seen | h_new
    · exact (h other h_seen).le
    · rw [List.mem_singleton.mp h_new]
  · intro j other h_before h_at
    rw [List.getElem?_append_left h_before] at h_at
    exact h other (List.mem_of_getElem? h_at)

end FirstNearest

/-! ### The search -/

/-- **What the search has found** among the frames it has seen: nothing, because all of them are out
of reach, or the first of the nearest, with its distance. -/
inductive Found (radius : ℚ) (distanceOf : Frame → ℚ) (seen : List Frame) :
    Option (ℕ × ℚ) → Prop
  | nothing (h_far : ∀ frame ∈ seen, radius < distanceOf frame) : Found radius distanceOf seen none
  | marker {i : ℕ} {frame : Frame} (h_first : FirstNearest distanceOf seen i frame)
      (h_reach : distanceOf frame ≤ radius) :
      Found radius distanceOf seen (some (i, distanceOf frame))

namespace Found

/-- **One more marker.** -/
theorem consider (h : Found radius distanceOf seen best) (frame : Frame) :
    Found radius distanceOf (seen ++ [frame])
      (considerMarker radius (distanceOf frame) seen.length best) := by
  unfold considerMarker
  cases h with
  -- nothing in reach so far: only the radius decides
  | nothing h_far =>
    split
    · next h_out =>
      refine .nothing fun other h_mem => ?_
      rcases List.mem_append.mp h_mem with h_seen | h_new
      · exact h_far other h_seen
      · rwa [List.mem_singleton.mp h_new]
    · next h_in =>
      -- it is the only one in reach, so all others are farther away
      have h_reach : distanceOf frame ≤ radius := not_lt.mp h_in
      exact .marker (.concat fun other h_mem => h_reach.trans_lt (h_far other h_mem)) h_reach
  -- only a strictly nearer one takes its place, so of two equally near the first stays
  | @marker i nearest h_first h_reach =>
    split
    · next h_out => exact .marker (h_first.append (h_reach.trans_lt h_out).le) h_reach
    · next h_in =>
      dsimp only
      split
      · next h_le => exact .marker (h_first.append h_le) h_reach
      · next h_not =>
        have h_nearer : distanceOf frame < distanceOf nearest := not_le.mp h_not
        exact .marker (.concat fun other h_mem => h_nearer.trans_le (h_first.le other h_mem))
          (not_lt.mp h_in)

/-- **All markers that follow.** -/
theorem scan (h : Found radius distanceOf seen best) (frames : List Frame) :
    Found radius distanceOf (seen ++ frames)
      (scanMarkers radius distanceOf best seen.length frames) := by
  induction frames generalizing seen best with
  | nil =>
    rw [List.append_nil]
    exact h
  | cons frame rest ih =>
    have h_rest := ih (h.consider frame)
    rw [List.append_assoc, List.singleton_append, List.length_append,
      List.length_singleton] at h_rest
    exact h_rest

/-- Nothing is found exactly where everything is out of reach. -/
theorem index_eq_none_iff (h : Found radius distanceOf frames best) :
    best.map Prod.fst = none ↔ ∀ frame ∈ frames, radius < distanceOf frame := by
  cases h with
  | nothing h_far => exact ⟨fun _ => h_far, fun _ => rfl⟩
  | marker h_first h_reach =>
    refine ⟨fun h_none => absurd h_none (by simp), fun h_far => ?_⟩
    exact absurd (h_far _ h_first.mem) h_reach.not_gt

/-- The index that is found is that of the first of the nearest, if this one is in reach. -/
theorem index_eq_some_iff (h : Found radius distanceOf frames best) (i : ℕ) :
    best.map Prod.fst = some i ↔
      ∃ frame, FirstNearest distanceOf frames i frame ∧ distanceOf frame ≤ radius := by
  cases h with
  | nothing h_far =>
    -- nothing was kept because nothing is within reach
    refine ⟨fun h_some => absurd h_some (by simp), ?_⟩
    rintro ⟨frame, h_first, h_reach⟩
    exact absurd (h_far frame h_first.mem) h_reach.not_gt
  | @marker k nearest h_nearest h_near =>
    constructor
    · intro h_some
      obtain rfl : k = i := Option.some.inj h_some
      exact ⟨nearest, h_nearest, h_near⟩
    · -- there is one first nearest marker only
      rintro ⟨frame, h_first, -⟩
      rw [h_nearest.index_eq h_first]
      rfl

end Found

/-! ### Markers on a strip -/

variable {pointer width fraction : ℚ} {total : Frame}

/-- How far the pointer is from the marker of a frame, which stands in proportion to the frame. -/
def markerDistance (total : Frame) (width pointer : ℚ) (frame : Frame) : ℚ :=
  |(frame : ℚ) / total * width - pointer|

/-- On a strip without frames or without a width nothing is looked for. -/
theorem nearestMarker_of_empty (h : total = 0 ∨ width ≤ 0) :
    nearestMarker frames pointer width total fraction = none :=
  if_pos h

/-- On any other strip the answer is what the search finds. -/
theorem exists_found (frames : List Frame) (pointer fraction : ℚ) (h_total : total ≠ 0)
    (h_width : 0 < width) :
    ∃ best, Found (fraction * width) (markerDistance total width pointer) frames best ∧
      nearestMarker frames pointer width total fraction = best.map Prod.fst := by
  have h_distance : (fun frame => magnitude (markerPosition total width frame - pointer)) =
      markerDistance total width pointer := funext fun frame => Exact.magnitude_eq_abs _
  have h_start : Found (fraction * width) (markerDistance total width pointer) [] none :=
    .nothing fun _ h_mem => absurd h_mem List.not_mem_nil
  refine ⟨_, h_start.scan frames, ?_⟩
  rw [nearestMarker, if_neg (not_or.mpr ⟨h_total, not_le.mpr h_width⟩), h_distance]
  rfl

/-- **When no marker is under the pointer.** -/
theorem nearestMarker_eq_none_iff :
    nearestMarker frames pointer width total fraction = none ↔
      total = 0 ∨ width ≤ 0 ∨
        ∀ frame ∈ frames, fraction * width < markerDistance total width pointer frame := by
  by_cases h_total : total = 0
  · exact ⟨fun _ => Or.inl h_total, fun _ => nearestMarker_of_empty (Or.inl h_total)⟩
  · rcases le_or_gt width 0 with h_none | h_width
    · exact ⟨fun _ => Or.inr (Or.inl h_none), fun _ => nearestMarker_of_empty (Or.inr h_none)⟩
    · obtain ⟨best, h_found, h_eq⟩ := exists_found frames pointer fraction h_total h_width
      rw [h_eq, h_found.index_eq_none_iff]
      simp only [h_total, h_width.not_ge, false_or]

/-- **Which marker is under the pointer.** -/
theorem nearestMarker_eq_some_iff :
    nearestMarker frames pointer width total fraction = some i ↔
      total ≠ 0 ∧ 0 < width ∧
        ∃ frame, FirstNearest (markerDistance total width pointer) frames i frame ∧
          markerDistance total width pointer frame ≤ fraction * width := by
  by_cases h_empty : total = 0 ∨ width ≤ 0
  · rw [nearestMarker_of_empty h_empty]
    refine ⟨fun h_some => absurd h_some (by simp), ?_⟩
    rintro ⟨h_total, h_width, -⟩
    exact absurd h_empty (not_or.mpr ⟨h_total, not_le.mpr h_width⟩)
  · obtain ⟨h_total, h_width⟩ := not_or.mp h_empty
    obtain ⟨best, h_found, h_eq⟩ := exists_found frames pointer fraction h_total (not_le.mp h_width)
    rw [h_eq, h_found.index_eq_some_iff]
    simp only [ne_eq, h_total, not_le.mp h_width, not_false_eq_true, true_and]

/-! ### Markers of a track -/

/-- Frames have markers at places of their own. -/
theorem markerDistance_pos (h_total : total ≠ 0) (h_width : 0 < width) (h_ne : frame' ≠ frame) :
    0 < markerDistance total width ((frame : ℚ) / total * width) frame' := by
  have h_total' : (total : ℚ) ≠ 0 := Nat.cast_ne_zero.mpr h_total
  refine abs_pos.mpr (sub_ne_zero.mpr fun h_same => h_ne ?_)
  exact Nat.cast_injective ((div_left_inj' h_total').mp (mul_right_cancel₀ h_width.ne' h_same))

/-- **A pointer on the marker of a keyframe** is on that keyframe. -/
theorem Sound.markerAt_marker {V : Type} {t : Track V} (h : t.Sound) {settings : Settings ℚ}
    (h_fraction : 0 < settings.hitRadiusFraction) (h_width : 0 < width)
    (h_at : t.frames[i]? = some frame) :
    t.markerAt settings ((frame : ℚ) / t.endFrame * width) width = some i := by
  have h_total : t.endFrame ≠ 0 := h.zero_lt_endFrame.ne'
  have h_zero : markerDistance t.endFrame width ((frame : ℚ) / t.endFrame * width) frame = 0 := by
    rw [markerDistance, sub_self, abs_zero]
  refine nearestMarker_eq_some_iff.mpr ⟨h_total, h_width, frame, ⟨h_at, ?_, ?_⟩, ?_⟩
  · intro other _
    rw [h_zero]
    exact abs_nonneg _
  · -- the frames in front of it are other frames, as frames ascend
    intro j other h_before h_other
    rw [h_zero]
    obtain ⟨h_j, rfl⟩ := List.getElem?_eq_some_iff.mp h_other
    obtain ⟨h_i, rfl⟩ := List.getElem?_eq_some_iff.mp h_at
    have h_lt := List.pairwise_iff_getElem.mp h.pairwise_frames j i h_j h_i h_before
    exact markerDistance_pos h_total h_width h_lt.ne
  · rw [h_zero]
    exact (mul_pos h_fraction h_width).le

/-- **The marker under the pointer.** On any list of frames, in any order and with repetitions,
there is none exactly if the strip shows no frames or has no width, or all markers are out of reach;
otherwise it is the first of those that are nearest, and within reach. On every track that commands
lead to, drawn under validated settings in any width, a pointer exactly on the marker of a keyframe
finds that keyframe. -/
theorem marker_under_pointer :
    (∀ (frames : List Frame) (pointer width : ℚ) (total : Frame) (fraction : ℚ),
      (nearestMarker frames pointer width total fraction = none ↔
        total = 0 ∨ width ≤ 0 ∨
          ∀ frame ∈ frames, fraction * width < markerDistance total width pointer frame) ∧
      ∀ i, nearestMarker frames pointer width total fraction = some i ↔
        total ≠ 0 ∧ 0 < width ∧
          ∃ frame, FirstNearest (markerDistance total width pointer) frames i frame ∧
            markerDistance total width pointer frame ≤ fraction * width) ∧
      ∀ (V : Type) (initial : V) (lastFrame : Frame) (commands : List (Command V))
        (settings : Settings ℚ) (width : ℚ) (i : ℕ) (frame : Frame),
        let t := (Outcome.runAll perform (create initial lastFrame) commands).2
        0 < width → t.frames[i]? = some frame →
          t.markerAt settings.validate ((frame : ℚ) / t.endFrame * width) width = some i := by
  refine ⟨fun frames pointer width total fraction => ⟨nearestMarker_eq_none_iff, fun i =>
    nearestMarker_eq_some_iff⟩, ?_⟩
  -- the frames of a track that commands lead to ascend, so no two of its markers coincide
  intro V initial lastFrame commands settings width i frame t h_width h_at
  obtain ⟨-, h_refines⟩ := (Refines.create initial lastFrame).runAll commands
  exact h_refines.sound.markerAt_marker settings.zero_lt_hitRadiusFraction_validate h_width h_at

/-- The pointer stands in the middle between two markers, one of which belongs to two frames; the
first of the three is taken. On a track that reaches its keyframes only just, in a width of a third,
the keyframe in the middle is found. -/
theorem marker_under_pointer_of_tie :
    let settings : Settings ℚ := { Settings.default with hitRadiusFraction := -5 }
    let t : Track ℕ :=
      (Outcome.runAll perform (create 7 200) [.add 150 8, .paste 100 9, .delete 150]).2
    (∃ frame, FirstNearest (markerDistance 100 1000 60) [90, 8, 4, 8] 1 frame ∧
        markerDistance 100 1000 60 frame ≤ 0.03 * 1000) ∧
      (0 : ℚ) < 1 / 3 ∧ t.frames[1]? = some 100 ∧ settings.validate.hitRadiusFraction = 0.001 ∧
      t.markerAt settings.validate (((100 : Frame) : ℚ) / t.endFrame * (1 / 3)) (1 / 3)
        = some 1 := by
  intro settings t
  obtain ⟨h_nearest, h_track⟩ := marker_under_pointer
  -- the markers at 4 and at 8 are both 20 pixels away, and 8 stands in front
  have h_answer : nearestMarker [90, 8, 4, 8] (60 : ℚ) 1000 100 0.03 = some 1 := by decide +kernel
  have h_width : (0 : ℚ) < 1 / 3 := by norm_num
  have h_at : t.frames[1]? = some 100 := by decide
  obtain ⟨-, h_some⟩ := h_nearest [90, 8, 4, 8] 60 1000 100 0.03
  obtain ⟨-, -, h_first⟩ := (h_some 1).mp h_answer
  exact ⟨h_first, h_width, h_at, by decide +kernel, h_track ℕ 7 200 _ settings _ 1 100 h_width h_at⟩

end Track

end ClipEdit
