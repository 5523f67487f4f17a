import ClipEdit.Proofs.Clip.Refusal
import ClipEdit.Proofs.Scalar.Sign
import ClipEdit.Proofs.Timeline.Playback

/-!
# What a clip keeps agrees with itself

A clip keeps more than it would have to. The map could be made from the timeline, the last frame is
stored in each of the two tracks, and the length of the clip stands in its description, in its
timeline and as the bound of the highlight duration. `Coherent` says that none of these copies ever
drifts away from the others.

For the map this is not a matter of one edit alone: it is made anew only by edits of the timeline
that are accepted, so it depends on refused ones having changed nothing (`Sound.atomic_apply`).

* `Kept.step` — a step keeps what a clip stores twice in agreement, for every kind of scalars;
* `Sound.total_ofTimeline` — the map and the timeline add up the same length, to the last bit;
* `reachable_coherent` — reachable clips are coherent, at binary64 numbers.
-/

namespace ClipEdit

open Scalar Gauge

/-! ### The length of the edited clip -/

namespace Timeline.Sound

variable {t : Timeline Float}

/-- A span that is shown lasts for some time, and a time that is not the negative zero can be added
to zero without loss. -/
theorem zero_add_visualDuration (h : t.Sound) {s : Span Float} (hs : s ∈ t.activeSpans) :
    0 + s.visualDuration = s.visualDuration := by
  obtain ⟨h_mem, h_flag⟩ := List.mem_filter.mp hs
  have h_shown : s.isTrimmed = false := by simpa using h_flag
  have h_duration : Binary64.IsPlus (Binary64.parts s.duration) :=
    Binary64.isPlus_sub_of_lt (h.tiled.tiles.start_lt_stop s h_mem)
  have h_speed : Binary64.IsPlus (Binary64.parts s.speed) :=
    Binary64.isPlus_of_pos (h.speeds s h_mem).2
  -- neither of the two is the negative zero, so neither is their quotient
  have h_eq : s.visualDuration = s.duration / s.speed := by
    rw [Span.visualDuration, h_shown, if_neg Bool.false_ne_true]
  rw [h_eq]
  exact Binary64.zero_add_of_isPlus (h_duration.stored_div h_speed)

/-- **The map of a timeline lasts as long as the timeline**, to the last bit. -/
theorem total_ofTimeline (h : t.Sound) : (TimeMap.ofTimeline t).total = t.visualDuration :=
  TimeMap.total_eq_visualDuration fun _ => h.zero_add_visualDuration

end Timeline.Sound

namespace Clip

/-! ### What every step keeps -/

variable {α : Type} [Scalar α] {c c' : Clip α} {settings : Settings α} {metadata : Metadata α}
  {fps : Nat}

/-- What a clip stores more than once is the same everywhere: its description, its length, and its
timeline, which the map is made from. -/
structure Kept (metadata : Metadata α) (fps : Nat) (c : Clip α) : Prop where
  metadata_eq : c.metadata = metadata
  fps_eq : c.fps = fps
  map_eq : c.map = .ofTimeline c.timeline
  timeline_duration : c.timeline.duration = metadata.duration
  timeline_sound : c.timeline.Sound
  zero_lt_highlightDuration : 0 < c.highlightDuration
  highlightDuration_le : c.highlightDuration ≤ metadata.duration

/-- The smaller of two positive numbers is positive, and not above the second one. -/
theorem zero_lt_atMost [Gauge α] {x hi : α} (h_x : 0 < x) (h_hi : 0 < hi) :
    0 < atMost x hi ∧ atMost x hi ≤ hi := by
  have h_num := isNumber_right_of_lt h_x
  have h_num_hi := isNumber_right_of_lt h_hi
  rw [atMost]
  split
  · exact ⟨h_hi, le_iff.mpr ⟨h_num_hi, h_num_hi, le_rfl⟩⟩
  · next h_not =>
    rw [if_pos (Gauge.beq_self h_num)]
    exact ⟨h_x, (Gauge.not_lt h_num_hi h_num).mp h_not⟩

theorem kept_loaded [Gauge α] (fps : Nat) (h_epsilon : 0 < settings.boundaryEpsilon)
    {timeline : Timeline α} (h : Timeline.ofSettings settings metadata.duration = .ok timeline) :
    (loaded metadata fps timeline).Kept metadata fps := by
  have h_sound := Timeline.Sound.create h_epsilon h
  have h_duration : timeline.duration = metadata.duration := by
    rw [(Timeline.create_eq_ok h).2.2]
  have h_pos : 0 < metadata.duration := h_duration ▸ h_sound.tiled.zero_lt_duration
  have h_num := isNumber_right_of_lt h_pos
  exact ⟨rfl, rfl, rfl, h_duration, h_sound, h_pos, le_iff.mpr ⟨h_num, h_num, le_rfl⟩⟩

/-- **An edit of the timeline leaves the map of the timeline**: it makes the map anew, or there was
nothing to make anew. -/
theorem Kept.editTimeline [Gauge α] (h : c.Kept metadata fps) (edit : Timeline.Edit α) :
    (c.editTimeline edit).state.Kept metadata fps := by
  have h_duration := (c.timeline.apply_settings edit).1
  refine { h with
    map_eq := ?_
    timeline_duration := h_duration.trans h.timeline_duration
    timeline_sound := h.timeline_sound.step (.edit edit) }
  change (if (c.timeline.apply edit).accepted then TimeMap.ofTimeline (c.timeline.apply edit).state
    else c.map) = TimeMap.ofTimeline (c.timeline.apply edit).state
  -- the map is made again exactly when the edit is carried out
  split
  · rfl
  · next h_refused =>
    rw [h.timeline_sound.atomic_apply edit (by simpa using h_refused)]
    exact h.map_eq

/-- **A step keeps them in agreement.** -/
theorem Kept.step [Gauge α] (h : c.Kept metadata fps) (h_step : Step c c') :
    c'.Kept metadata fps := by
  cases h_step with
  | timeline edit => exact h.editTimeline edit
  | @last seconds h_fin h_not =>
    have h_seconds := (Gauge.not_le (isNumber_of_isFinite h_fin) isNumber_zero).mp h_not
    have h_duration : 0 < metadata.duration :=
      h.timeline_duration ▸ h.timeline_sound.tiled.zero_lt_duration
    obtain ⟨h_pos, h_le⟩ := zero_lt_atMost h_seconds h_duration
    rw [← h.metadata_eq] at h_pos h_le
    exact { h with
      zero_lt_highlightDuration := h_pos
      highlightDuration_le := h.metadata_eq ▸ h_le }
  -- nothing else touches what is stored more than once
  | stay => exact h
  | unlock => exact { h with }
  | crop => exact { h with }
  | highlight => exact { h with }
  | holdCrop => exact { h with }
  | holdHighlight => exact { h with }
  | enable => exact { h with }

theorem Reachable.kept [Gauge α] (h : c.Reachable settings metadata fps)
    (h_epsilon : 0 < settings.boundaryEpsilon) : c.Kept metadata fps :=
  h.induction (fun _ => kept_loaded fps h_epsilon) Kept.step

/-! ### Coherent clips -/

/-- **A coherent clip.** The map is that of the timeline, and says that the edited clip is as long as
the timeline says. The timeline is as long as the clip, both tracks end at its last frame, no frame
is shown past that one, and the highlight is shown for some time, but for no longer than the clip. -/
structure Coherent (metadata : Metadata α) (fps : Nat) (c : Clip α) : Prop where
  metadata_eq : c.metadata = metadata
  fps_eq : c.fps = fps
  map_eq : c.map = .ofTimeline c.timeline
  visualDuration_eq : c.visualDuration = c.timeline.visualDuration
  timeline_duration : c.timeline.duration = metadata.duration
  crop_endFrame : c.crop.endFrame = max 1 (Frame.ofTime metadata.duration fps)
  highlight_endFrame : c.highlight.endFrame = max 1 (Frame.ofTime metadata.duration fps)
  visualToFrame_le : ∀ time, c.visualToFrame time ≤ c.endFrame
  zero_lt_highlightDuration : 0 < c.highlightDuration
  highlightDuration_le : c.highlightDuration ≤ metadata.duration

/-- **Reachable clips are coherent.** Whatever edits were made, with whatever arguments, and whether
they were carried out or refused. -/
theorem reachable_coherent {settings : Settings Float} {metadata : Metadata Float} {fps : Nat}
    {c : Clip Float} (h : c.Reachable settings.validate metadata fps) : c.Coherent metadata fps := by
  have h_sound := h.sound
  have h_kept := h.kept settings.zero_lt_boundaryEpsilon_validate
  have h_total : c.visualDuration = c.timeline.visualDuration := by
    rw [visualDuration, h_kept.map_eq]
    exact h_kept.timeline_sound.total_ofTimeline
  exact { h_kept with
    visualDuration_eq := h_total
    crop_endFrame := h_sound.crop_endFrame.trans (max_comm _ _)
    highlight_endFrame := h_sound.highlight_endFrame.trans (max_comm _ _)
    visualToFrame_le := fun _ => Nat.min_le_right _ _ }

/-- A clip of ten seconds without its first four, the rest at double speed, with an edit that was
refused and a highlight that was to be shown for longer than the clip. -/
theorem reachable_coherent_of_trimmed :
    ∃ c : Clip Float, c.Reachable Settings.default.validate ⟨1920.0, 1080.0, 10.0⟩ 30 ∧
      c.timeline.trims = [⟨.start, 0⟩] ∧ c.visualDuration = 3.0 ∧ c.endFrame = 300 ∧
      c.highlightDuration = 10.0 ∧ c.Coherent ⟨1920.0, 1080.0, 10.0⟩ 30 := by
  -- the clip stays under its name, so that it is evaluated for `h_facts` only
  obtain ⟨c, h_c⟩ : ∃ c : Clip Float, run (loaded (⟨1920.0, 1080.0, 10.0⟩ : Metadata Float) 30
      ⟨10.0, [⟨0, 10.0, 1.0, false⟩], [], 0.01, .keepRight⟩)
      [.timeline (.addBoundary 4.0), .timeline (.setSpeed 1 2.0), .timeline (.trim 0),
        .timeline (.detrim .stop), .setHighlightDuration 60.0] = c := ⟨_, rfl⟩
  have h : c.Reachable Settings.default.validate ⟨1920.0, 1080.0, 10.0⟩ 30 :=
    ⟨_, _, load_of_valid (by decide +kernel) (by decide) (by decide +kernel), h_c⟩
  have h_facts : c.timeline.trims = [⟨.start, 0⟩] ∧ c.visualDuration = 3.0 ∧ c.endFrame = 300 ∧
      c.highlightDuration = 10.0 := by
    rw [← h_c]
    decide +kernel
  obtain ⟨h_trims, h_total, h_end, h_highlight⟩ := h_facts
  exact ⟨c, h, h_trims, h_total, h_end, h_highlight, reachable_coherent h⟩

end Clip

end ClipEdit
