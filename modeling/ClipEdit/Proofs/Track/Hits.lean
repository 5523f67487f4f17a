import ClipEdit.Proofs.Settings.Usable
import ClipEdit.Proofs.Track.Counts
import ClipEdit.Proofs.Track.Order
import ClipEdit.Track.Marker

/-!
# Real hits

A lookup that finds a keyframe should have hit one: by a time that lands on its frame, or by a pointer
within reach of its marker. In binary64 the answer depends on how a miss is refused. The search for a
marker leaves out what is farther away than the reach, and gives up what it kept for anything that is
not at least as far away. A distance that is no number passes both tests. So it is kept, and the next
one like it takes its place (`considerMarker_of_not_isNumber`).

The marker of the last keyframe is considered last, and it stands at the end of the strip whatever
the width is (`parts_markerPosition_end`). If its distance is no number, it is what the search ends
with. If it is a number, something that has a distance is kept, and this is within reach
(`Sound.isNumber_kept`); where the strip has a finite width all distances are numbers then, and where
the width is infinite so is the reach. `lookups_hit_iff` puts this together with what is known of
times.
-/

namespace ClipEdit

open Scalar Gauge
open Binary64 (parts inFormat_parts)

namespace Track

variable {V : Type} {t : Track V}

/-! ### The search for a marker -/

section Search

variable {radius d d' : Float} {distanceOf : Frame → Float} {best : Option (Nat × Float)}
  {seen : List Frame} {i index : Nat}

/-- **What the search keeps** is a marker that it has seen, with its distance, and this is not past
the reach. That does not say yet that the distance is within the reach. -/
def Kept (radius : Float) (distanceOf : Frame → Float) (seen : List Frame)
    (best : Option (Nat × Float)) : Prop :=
  ∀ i d, best = some (i, d) →
    ∃ frame, seen[i]? = some frame ∧ distanceOf frame = d ∧ ¬ radius < d

/-- A marker that was seen is still there when one more follows. -/
theorem Kept.append (h : Kept radius distanceOf seen best) (frame : Frame) :
    Kept radius distanceOf (seen ++ [frame]) best := by
  intro i d h_eq
  obtain ⟨other, h_at, h_distance⟩ := h i d h_eq
  obtain ⟨h_lt, -⟩ := List.getElem?_eq_some_iff.mp h_at
  exact ⟨other, by rw [List.getElem?_append_left h_lt, h_at], h_distance⟩

/-- **One more marker.** -/
theorem Kept.consider (h : Kept radius distanceOf seen best) (frame : Frame) :
    Kept radius distanceOf (seen ++ [frame])
      (considerMarker radius (distanceOf frame) seen.length best) := by
  unfold considerMarker
  split
  · exact h.append frame
  · next h_reach =>
    -- not past the reach, so it may be kept
    have h_new : Kept radius distanceOf (seen ++ [frame])
        (some (seen.length, distanceOf frame)) := by
      rintro i d ⟨⟩
      exact ⟨frame, List.getElem?_concat_length, rfl, h_reach⟩
    split
    · exact h_new
    · split
      · exact h.append frame
      · exact h_new

/-- **All markers that follow.** -/
theorem Kept.scan (h : Kept radius distanceOf seen best) (frames : List Frame) :
    Kept radius distanceOf (seen ++ frames)
      (scanMarkers radius distanceOf best seen.length frames) := by
  induction frames generalizing seen best with
  | nil =>
    rw [List.append_nil]
    exact h
  | cons frame rest ih =>
    have h_rest := ih (h.consider frame)
    rw [List.append_assoc, List.singleton_append, List.length_append,
      List.length_singleton] at h_rest
    exact h_rest

/-- What a search over all markers ends with. -/
theorem exists_of_scanMarkers {frames : List Frame}
    (h : scanMarkers radius distanceOf none 0 frames = some (i, d)) :
    ∃ frame, frames[i]? = some frame ∧ distanceOf frame = d ∧ ¬ radius < d := by
  have h_start : Kept radius distanceOf [] none := fun _ _ h_eq => absurd h_eq (by simp)
  exact h_start.scan frames i d h

/-- The last marker is considered last. -/
theorem scanMarkers_concat (frames : List Frame) (frame : Frame) :
    scanMarkers radius distanceOf best index (frames ++ [frame]) =
      considerMarker radius (distanceOf frame) (index + frames.length)
        (scanMarkers radius distanceOf best index frames) := by
  induction frames generalizing best index with
  | nil => rfl
  | cons first rest ih =>
    rw [List.cons_append, scanMarkers, ih, scanMarkers, List.length_cons]
    congr 1
    omega

/-- **A distance that is no number always wins**: it is not past the reach, and nothing that was kept
is nearer. -/
theorem considerMarker_of_not_isNumber (h : ¬ IsNumber d) :
    considerMarker radius d index best = some (index, d) := by
  have h_reach : ¬ radius < d := fun h_lt => h (isNumber_right_of_lt h_lt)
  have h_nearer : ∀ d' : Float, ¬ d' ≤ d := fun d' h_le => h (le_iff.mp h_le).2.1
  unfold considerMarker
  rw [if_neg h_reach]
  cases best with
  | none => rfl
  | some kept => simp only [h_nearer, if_false]

/-- After a distance that is a number and not past the reach, a number is kept. -/
theorem isNumber_of_considerMarker (h : IsNumber d) (h_reach : ¬ radius < d)
    (h_kept : considerMarker radius d index best = some (i, d')) : IsNumber d' := by
  unfold considerMarker at h_kept
  rw [if_neg h_reach] at h_kept
  cases best with
  | none =>
    obtain ⟨⟩ := h_kept
    exact h
  | some kept =>
    -- what was kept before stays only if the comparison holds, and then it is a number
    dsimp only at h_kept
    split at h_kept
    · next h_le =>
      obtain ⟨⟩ := h_kept
      exact (le_iff.mp h_le).1
    · obtain ⟨⟩ := h_kept
      exact h

end Search

/-! ### Markers of a track -/

/-- All keyframes but the one at the end. -/
theorem length_before_end : (0 :: t.inner.map Prod.fst).length = t.size - 1 := by
  rw [size_eq, List.length_cons, List.length_map]
  omega

/-- The last keyframe is the one at the end. -/
theorem getElem?_frames_last : t.frames[t.size - 1]? = some t.endFrame := by
  rw [frames_eq, ← List.cons_append, ← length_before_end, List.getElem?_concat_length]

section Markers

variable {total : Frame} {pointer width : Float} {i : Nat}

/-- How far the marker of a frame is from the pointer. -/
def markerGap (total : Frame) (width pointer : Float) (frame : Frame) : Float :=
  magnitude (markerPosition total width frame - pointer)

/-- **The last marker stands at the end of the strip**, whatever the width is. -/
theorem parts_markerPosition_end (h_total : 0 < total) (h_limit : total ≤ Frame.limit)
    (h_width : ¬ width ≤ 0) : parts (markerPosition total width total) = parts width := by
  obtain ⟨h_fin, h_value⟩ := Counting.natCast_exact (α := Float) h_limit
  change Binary64.value (parts (total : Float)) = total at h_value
  have h_ne : (total : ℚ) ≠ 0 := Nat.cast_ne_zero.mpr h_total.ne'
  -- a frame divided by itself is one, to the last bit
  have h_quotient : parts ((total : Float) / (total : Float)) = parts 1.0 := by
    have h_rounded := Binary64.rounded_div h_fin h_fin (by rwa [h_value])
    rw [h_value, div_self h_ne] at h_rounded
    have h_one := h_rounded.eq_value (inFormat_parts 1.0) Binary64.value_one
    refine Binary64.eq_of_value_eq (inFormat_parts _) (inFormat_parts _) ?_
      (h_one.trans Binary64.value_one.symm)
    rw [h_one]
    exact one_pos
  have h_product : markerPosition total width total = 1.0 * width :=
    Binary64.mul_congr h_quotient rfl
  rw [h_product]
  -- one times the width: the format has it, or it is infinite, or it is no number
  by_cases h_number : IsNumber width
  · have h_pos := value_lt_of_lt ((Gauge.not_le h_number isNumber_zero).mp h_width)
    rw [value_zero] at h_pos
    have h_one : 0 < Binary64.value (parts (1.0 : Float)) := by
      rw [Binary64.value_one]
      exact one_pos
    by_cases h_fin_width : width.isFinite = true
    · have h_rounded := Binary64.rounded_mul (x := 1.0) (by decide) h_fin_width
      rw [Binary64.value_one, one_mul] at h_rounded
      have h_same := h_rounded.eq_value (inFormat_parts width) rfl
      exact Binary64.eq_of_value_eq (inFormat_parts _) (inFormat_parts _)
        (h_pos.trans_eq h_same.symm) h_same
    · obtain h_infinity | ⟨m, e, hm, h_some⟩ := Binary64.infinity_or_finite_of_pos h_pos
      · rw [Binary64.parts_mul_of_infinite h_one h_pos (by simp [h_fin_width]), h_infinity]
      · exact absurd (show (parts _).isFinite = true by rw [h_some]; rfl) h_fin_width
  · rw [Binary64.parts_of_not_isNumber (Binary64.not_isNumber_mul (Or.inr h_number)),
      Binary64.parts_of_not_isNumber h_number]

/-- So the last marker is as far from the pointer as the end of the strip is. -/
theorem markerGap_end (h_total : 0 < total) (h_limit : total ≤ Frame.limit) (h_width : ¬ width ≤ 0) :
    markerGap total width pointer total = magnitude (width - pointer) := by
  exact congrArg magnitude
    (Binary64.sub_congr (parts_markerPosition_end h_total h_limit h_width) rfl)

/-- On a strip of finite width all markers have finite places. -/
theorem isFinite_markerPosition {frame : Frame} (h_total : 0 < total) (h_limit : total ≤ Frame.limit)
    (h_frame : frame ≤ total) (h_width : isFinite width = true) :
    isFinite (markerPosition total width frame) = true := by
  obtain ⟨h_fin, h_value⟩ := Counting.natCast_exact (α := Float) h_limit
  obtain ⟨h_fin', h_value'⟩ := Counting.natCast_exact (α := Float) (h_frame.trans h_limit)
  change Binary64.value (parts (total : Float)) = total at h_value
  change Binary64.value (parts (frame : Float)) = frame at h_value'
  have h_pos : (0 : ℚ) < total := by exact_mod_cast h_total
  have h_le : (frame : ℚ) ≤ total := by exact_mod_cast h_frame
  have h_one : (1.0 : Float).isFinite = true := by decide
  -- the frame is at most the whole part of the strip, and rounding does not cross one
  have h_quotient := Binary64.rounded_div h_fin' h_fin (by rw [h_value]; exact h_pos.ne')
  have h_part : |Binary64.value (parts ((frame : Float) / (total : Float)))| ≤ 1 := by
    have h_exact : |Binary64.value (parts (frame : Float)) / Binary64.value (parts (total : Float))|
        ≤ |Binary64.value (parts (1.0 : Float))| := by
      rw [h_value, h_value', Binary64.value_one, abs_one, abs_div, Nat.abs_cast, Nat.abs_cast]
      exact div_le_one_of_le₀ h_le h_pos.le
    have h_rounded := h_quotient.abs_value_le (inFormat_parts 1.0) h_exact
    rwa [Binary64.value_one, abs_one] at h_rounded
  have h_fin_quotient : ((frame : Float) / (total : Float)).isFinite = true := by
    refine (Binary64.isFinite_iff (inFormat_parts _)).mpr ⟨h_quotient.isNumber, ?_⟩
    exact h_part.trans_lt (by decide +kernel)
  -- so the product is no larger than the width, and rounding does not cross that
  have h_product := Binary64.rounded_mul h_fin_quotient h_width
  have h_below := h_product.abs_value_le (inFormat_parts width) (by
    rw [abs_mul]
    exact mul_le_of_le_one_left (abs_nonneg _) h_part)
  refine (Binary64.isFinite_iff (inFormat_parts _)).mpr ⟨h_product.isNumber, ?_⟩
  exact h_below.trans_lt ((Binary64.isFinite_iff (inFormat_parts width)).mp h_width).2

end Markers

namespace Sound

variable {settings : Settings Float} {pointer width d : Float} {i : Nat}

/-- On a strip with a width the answer is what the search keeps. -/
theorem markerAt_eq (h : t.Sound) (h_width : ¬ width ≤ 0) :
    t.markerAt settings pointer width =
      (scanMarkers (settings.hitRadiusFraction * width) (markerGap t.endFrame width pointer) none 0
        t.frames).map Prod.fst := by
  unfold markerAt nearestMarker
  rw [if_neg (not_or.mpr ⟨h.zero_lt_endFrame.ne', h_width⟩)]
  rfl

/-- What is kept of the markers of a track: the one at the end is considered last. -/
theorem scanMarkers_frames (radius : Float) (distanceOf : Frame → Float) :
    scanMarkers radius distanceOf none 0 t.frames =
      considerMarker radius (distanceOf t.endFrame) (t.size - 1)
        (scanMarkers radius distanceOf none 0 (0 :: t.inner.map Prod.fst)) := by
  rw [frames_eq, ← List.cons_append, scanMarkers_concat, Nat.zero_add, length_before_end]

/-- **Where the end of the strip is no number away**, the last keyframe is found. -/
theorem markerAt_of_not_isNumber (h : t.Sound) (h_limit : t.endFrame ≤ Frame.limit)
    (h_width : ¬ width ≤ 0) (h_nan : ¬ IsNumber (width - pointer)) :
    t.markerAt settings pointer width = some (t.size - 1) := by
  have h_gap : ¬ IsNumber (markerGap t.endFrame width pointer t.endFrame) := by
    rw [markerGap_end h.zero_lt_endFrame h_limit h_width]
    exact mt Binary64.isNumber_of_magnitude h_nan
  rw [h.markerAt_eq h_width, scanMarkers_frames, considerMarker_of_not_isNumber h_gap]
  rfl

/-- **Where it is a number away**, what is kept has a distance, and the reach is one as well. -/
theorem isNumber_kept (h : t.Sound) (h_limit : t.endFrame ≤ Frame.limit)
    (h_fraction : 0 < settings.hitRadiusFraction) (h_width : ¬ width ≤ 0)
    (h_number : IsNumber (width - pointer))
    (h_kept : scanMarkers (settings.hitRadiusFraction * width)
      (markerGap t.endFrame width pointer) none 0 t.frames = some (i, d)) :
    IsNumber (settings.hitRadiusFraction * width) ∧ IsNumber d := by
  obtain ⟨h_number_width, h_number_pointer⟩ := Binary64.isNumber_of_sub h_number
  have h_width_pos := value_lt_of_lt ((Gauge.not_le h_number_width isNumber_zero).mp h_width)
  have h_fraction_pos := value_lt_of_lt h_fraction
  rw [value_zero] at h_width_pos h_fraction_pos
  refine ⟨Binary64.isNumber_mul h_fraction_pos h_width_pos, ?_⟩
  by_cases h_fin : width.isFinite = true
  · -- all markers have places, so every distance is one
    obtain ⟨frame, h_at, rfl, -⟩ := exists_of_scanMarkers h_kept
    have h_mem := List.mem_of_getElem? h_at
    exact isNumber_magnitude (isNumber_sub (isFinite_markerPosition h.zero_lt_endFrame h_limit
      (h.le_endFrame frame h_mem) h_fin) h_number_pointer)
  · -- the reach is infinite, so the last marker is not past it, and it has a distance
    have h_reach : ¬ settings.hitRadiusFraction * width <
        markerGap t.endFrame width pointer t.endFrame := by
      intro h_lt
      have h_value := value_lt_of_lt h_lt
      have h_radius := Binary64.parts_mul_of_infinite h_fraction_pos h_width_pos (by simp [h_fin])
      change Binary64.value (parts _) < _ at h_value
      rw [h_radius] at h_value
      exact h_value.not_ge (abs_le.mp (Binary64.abs_value_le (inFormat_parts _))).2
    have h_gap : IsNumber (markerGap t.endFrame width pointer t.endFrame) := by
      rw [markerGap_end h.zero_lt_endFrame h_limit h_width]
      exact isNumber_magnitude h_number
    rw [scanMarkers_frames] at h_kept
    exact isNumber_of_considerMarker h_gap h_reach h_kept

/-- **When the marker that is found is within reach.** -/
theorem markerAt_within_iff (h : t.Sound) (h_limit : t.endFrame ≤ Frame.limit)
    (h_fraction : 0 < settings.hitRadiusFraction)
    (h_at : t.markerAt settings pointer width = some i) :
    (∃ frame, t.frames[i]? = some frame ∧
        markerGap t.endFrame width pointer frame ≤ settings.hitRadiusFraction * width) ↔
      (width - pointer).isNaN = false := by
  have h_width : ¬ width ≤ 0 := by
    intro h_le
    rw [markerAt, nearestMarker, if_pos (Or.inr h_le)] at h_at
    exact absurd h_at (by simp)
  rw [Binary64.isNaN_eq_false_iff]
  constructor
  · rintro ⟨frame, h_frame, h_within⟩
    by_contra h_nan
    -- the last keyframe was found, and its distance is no number
    rw [h.markerAt_of_not_isNumber h_limit h_width h_nan, Option.some.injEq] at h_at
    rw [← h_at, getElem?_frames_last, Option.some.injEq] at h_frame
    rw [← h_frame, markerGap_end h.zero_lt_endFrame h_limit h_width] at h_within
    exact h_nan (Binary64.isNumber_of_magnitude (le_iff.mp h_within).1)
  · intro h_number
    rw [h.markerAt_eq h_width] at h_at
    obtain ⟨⟨j, d⟩, h_kept, rfl⟩ := Option.map_eq_some_iff.mp h_at
    obtain ⟨h_radius, h_d⟩ := h.isNumber_kept h_limit h_fraction h_width h_number h_kept
    obtain ⟨frame, h_frame, rfl, h_reach⟩ := exists_of_scanMarkers h_kept
    exact ⟨frame, h_frame, (Gauge.not_lt h_radius h_d).mp h_reach⟩

end Sound

/-! ### Tracks that commands lead to -/

/-- What commands lead to is sound, and ends where the new track ended. -/
theorem Sound.runAll (h : t.Sound) (commands : List (Command V)) :
    (Outcome.runAll Track.perform t commands).2.Sound ∧
      (Outcome.runAll Track.perform t commands).2.endFrame = t.endFrame := by
  induction commands generalizing t with
  | nil => exact ⟨h, rfl⟩
  | cons c rest ih =>
    obtain ⟨h_sound, h_end⟩ := ih (h.perform c)
    exact ⟨h_sound, h_end.trans (endFrame_perform t c)⟩

/-- **Which lookups are real hits.** On every track that commands lead to: a value is found at a time
exactly if the count of frames lands on a keyframe that shows it, or if the count is no number and the
value is the first one, or if the count is past the last frame there can be and the track ends there.
In particular a time that is no number finds the first value. A marker that is found under the pointer
is within reach exactly if the end of the strip is a number away from the pointer; if it is not, the
last keyframe is found all the same. -/
theorem lookups_hit_iff (initial : V) {lastFrame : Frame} (h_limit : lastFrame ≤ Frame.limit)
    (commands : List (Command V)) :
    let t := (Outcome.runAll perform (create initial lastFrame) commands).2
    (∀ (time : Float) (fps : Nat) (v : V), t.valueAt? time fps = some v ↔
        t.LandsOn (time * (fps : Float)) v ∨ (time * (fps : Float)).isNaN = true ∧ v = t.start ∨
          t.endFrame = Frame.limit ∧ v = t.endValue ∧
            (Frame.limit : Float) < roundWhole (time * (fps : Float)) ∧
              ¬ frameTolerance < magnitude
                (time * (fps : Float) - roundWhole (time * (fps : Float)))) ∧
      (∀ (time : Float) (fps : Nat), time.isNaN = true → t.valueAt? time fps = some t.start) ∧
      ∀ (settings : Settings Float) (pointer width : Float),
        (∀ i, t.markerAt settings.validate pointer width = some i →
          ((∃ frame, t.frames[i]? = some frame ∧ markerGap t.endFrame width pointer frame ≤
              settings.validate.hitRadiusFraction * width) ↔ (width - pointer).isNaN = false)) ∧
        (¬ width ≤ 0 → (width - pointer).isNaN = true →
          t.markerAt settings.validate pointer width = some (t.size - 1)) := by
  intro t
  -- commands keep a track sound, and its end where it was
  obtain ⟨h_sound, h_end⟩ := (Sound.create initial lastFrame).runAll commands
  have h_limit : t.endFrame ≤ Frame.limit := by
    rw [show t.endFrame = max lastFrame 1 from h_end]
    exact max_le h_limit (by decide)
  refine ⟨?_, ?_, ?_⟩
  · intro time fps v
    rw [valueAt?_eq]
    exact h_sound.hit?_eq_some_iff h_limit
  · intro time fps h_nan
    rw [valueAt?_eq]
    exact h_sound.hit?_of_not_isNumber
      (Binary64.not_isNumber_mul (Or.inl (Binary64.isNaN_iff.mp h_nan)))
  · intro settings pointer width
    -- the reach of the pointer is validated with the other settings
    have h_fraction : 0 < settings.validate.hitRadiusFraction :=
      Gauge.lt_of_lt_of_le (by decide) settings.validate_usable.hitRadiusFraction.1
    refine ⟨fun i h_at => h_sound.markerAt_within_iff h_limit h_fraction h_at, ?_⟩
    intro h_width h_nan
    exact h_sound.markerAt_of_not_isNumber h_limit h_width (Binary64.isNaN_iff.mp h_nan)

/-- A keyframe at frame 45 of 300 is found at the time 1.5 and under a pointer five pixels beside its
marker. What is no number finds the first value and the last marker. -/
theorem lookups_hit_iff_of_three :
    let t := (Outcome.runAll perform (create 7 300) [.add 45 9]).2
    let settings : Settings Float := .default
    300 ≤ Frame.limit ∧ t.LandsOn (1.5 * ((30 : Nat) : Float)) 9 ∧
      t.valueAt? (1.5 : Float) 30 = some 9 ∧
      (0.0 / 0.0 : Float).isNaN = true ∧ t.valueAt? (0.0 / 0.0 : Float) 30 = some 7 ∧
      t.markerAt settings.validate 155.0 1000.0 = some 1 ∧
      (∃ frame, t.frames[1]? = some frame ∧ markerGap t.endFrame 1000.0 155.0 frame ≤
        settings.validate.hitRadiusFraction * 1000.0) ∧
      ¬ (1000.0 : Float) ≤ 0 ∧ ((1000.0 : Float) - 0.0 / 0.0).isNaN = true ∧
      t.markerAt settings.validate (0.0 / 0.0) 1000.0 = some 2 := by
  intro t settings
  have h_limit : 300 ≤ Frame.limit := by decide
  obtain ⟨h_value, h_time, h_marker⟩ := lookups_hit_iff 7 h_limit [.add 45 9]
  -- frame 45 is at 1.5 seconds, and its marker at pixel 150
  have h_lands : t.LandsOn (1.5 * ((30 : Nat) : Float)) 9 := by
    refine ⟨45, by decide, ?_, by decide⟩
    decide +kernel
  have h_nan : (0.0 / 0.0 : Float).isNaN = true := by decide +kernel
  have h_at : t.markerAt settings.validate 155.0 1000.0 = some 1 := by decide +kernel
  have h_width : ¬ (1000.0 : Float) ≤ 0 := by decide
  have h_gap : ((1000.0 : Float) - 0.0 / 0.0).isNaN = true := by decide +kernel
  obtain ⟨h_within, -⟩ := h_marker settings 155.0 1000.0
  obtain ⟨-, h_last⟩ := h_marker settings (0.0 / 0.0) 1000.0
  exact ⟨h_limit, h_lands, (h_value 1.5 30 9).mpr (Or.inl h_lands), h_nan, h_time _ 30 h_nan, h_at,
    (h_within 1 h_at).mpr (by decide +kernel), h_width, h_gap, h_last h_width h_gap⟩

/-- **What is no number hits something.** A track of two keyframes has a value at such a time, though
the time is near none of its frames, and a marker under such a pointer, though none is within reach. -/
theorem lookups_hit_nothing :
    let t := (Outcome.runAll perform (create 7 300) []).2
    let settings : Settings Float := .default
    t.valueAt? (0.0 / 0.0 : Float) 30 = some 7 ∧
      (¬ ∃ frame ∈ t.frames, magnitude ((0.0 / 0.0 : Float) * ((30 : Nat) : Float) -
        (frame : Float)) ≤ frameTolerance) ∧
      t.markerAt settings.validate (0.0 / 0.0) 1000.0 = some 1 ∧
      ¬ ∃ frame ∈ t.frames, markerGap t.endFrame 1000.0 (0.0 / 0.0) frame ≤
        settings.validate.hitRadiusFraction * 1000.0 := by
  decide +kernel

end Track

end ClipEdit
