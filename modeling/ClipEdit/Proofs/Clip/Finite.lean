import ClipEdit.Proofs.Clip.Coherence
import ClipEdit.Proofs.Clip.Rounding
import ClipEdit.Proofs.Scalar.Length
import ClipEdit.Proofs.Wire.Payload

/-!
# Finite payloads

In binary64 arithmetic an edit may carry any number, also none at all and the infinities. Most of
them are brought into a range that ends at a side of the frame or at the duration, and a clip of
ordinary size (`Metadata.Ordinary`) leaves those room for rounding. Two kinds of numbers are not, the
opacity of a highlight and the speed of a span:

* **overlays** — a crop has finite thousandths, whatever was asked for, and a highlight has them if
  its opacity has: `Crop.Framed.finite`, `Highlight.Framed.finite_iff`;
* **timelines** — the spans lie in the clip, so what is left are their speeds:
  `Timeline.Tiled.finite_iff`;
* **texts** — a number that is not finite is written as a null, which cannot be read back, and with
  finite numbers the whole text is: `Sound.exported_iff`.

`exported_finite_iff` puts these together. Accepted speeds are finite, but a thousand times a speed
need not be: `exported_not_finite` loses one.
-/

namespace ClipEdit

open Scalar Gauge
open Binary64 hiding value value_zero
open Float.Model

/-! ### Overlays -/

section Overlays

variable {frame : Size .video Float}

theorem Length.minSize : Length 4 (Crop.minSize : Float) :=
  of_value_eq (n := 10) (by decide) (by decide +kernel) (by norm_num)

theorem Length.minRadius :
    Length 4 (Highlight.minRadiusX : Float) ∧ Length 4 (Highlight.minRadiusY : Float) :=
  ⟨of_value_eq (n := 10) (by decide) (by decide +kernel) (by norm_num),
    of_value_eq (n := 15) (by decide) (by decide +kernel) (by norm_num)⟩

/-- The place and the size of a crop on one axis. -/
theorem Length.crop_axis {side : Float} (h_side : Length 1013 side) (size position : Float) :
    let extent := Scalar.roundMilli (Scalar.within size Crop.minSize side)
    isFinite (Scalar.roundMilli extent) = true ∧
      isFinite (Scalar.roundMilli (Scalar.roundMilli
        (Scalar.within position 0 (atLeast (side - extent) 0)))) = true := by
  intro extent
  have h_size := (minSize.mono (by norm_num)).within h_side size
  have h_extent : Length 1014 extent := h_size.roundMilli le_rfl
  have h_room := h_side.room (by norm_num) (h_extent.finite (by norm_num)) h_extent.nonneg
  exact ⟨h_size.finite_twice, ((zero 1013).within h_room position).finite_twice⟩

/-- The place and the size of a highlight on one axis. -/
theorem Length.highlight_axis {side least : Float} (h_side : Length 1013 side)
    (h_least : Length 4 least) (size position : Float) :
    let radius := Scalar.roundMilli (Scalar.within size least (side / 2.0))
    isFinite (Scalar.roundMilli radius) = true ∧
      isFinite (Scalar.roundMilli (Scalar.roundMilli
        (Scalar.within position radius (side - radius)))) = true := by
  intro radius
  have h_size : Length 1012 (Scalar.within size least (side / 2.0)) :=
    (h_least.mono (by norm_num)).within (h_side.half (by norm_num)) size
  have h_radius : Length 1013 radius := h_size.roundMilli (by norm_num)
  -- a radius that was rounded may be larger than a small side, so the far end need not be a length
  have h_edge : Below 1013 (side - radius) := by
    have h_sub := rounded_sub (h_side.finite (by norm_num)) (h_radius.finite (by norm_num))
    exact h_sub.below (by norm_num) (abs_sub_le_of_nonneg_of_le h_side.nonneg
      (abs_le.mp h_side.below.le_pow).2 h_radius.nonneg (abs_le.mp h_radius.below.le_pow).2)
  exact ⟨(h_size.mono (by norm_num)).finite_twice,
    (h_radius.below.within h_edge position).roundMilli_twice.2⟩

/-- A crop that was brought into a frame that is not too large has thousandths. -/
theorem Crop.Framed.finite {c : Crop Float} (h : c.Framed frame)
    (h_width : Length 1013 frame.width) (h_height : Length 1013 frame.height) :
    ∀ x ∈ c.rounded.numbers, isFinite x = true := by
  obtain ⟨raw, rfl⟩ := h
  obtain ⟨h_wide, h_x⟩ := h_width.crop_axis raw.width raw.x
  obtain ⟨h_high, h_y⟩ := h_height.crop_axis raw.height raw.y
  rw [Crop.forall_numbers]
  exact ⟨h_x, h_y, h_wide, h_high⟩

/-- **A highlight has thousandths if its opacity has**: the rest of it was brought into the frame. -/
theorem Highlight.Framed.finite_iff {v : Highlight Float} (h : v.Framed frame)
    (h_width : Length 1013 frame.width) (h_height : Length 1013 frame.height) :
    (∀ x ∈ v.rounded.numbers, isFinite x = true) ↔ (v.opacity * 1000.0).isFinite = true := by
  obtain ⟨raw, rfl⟩ := h
  obtain ⟨h_wide, h_x⟩ := h_width.highlight_axis Length.minRadius.1 raw.radiusX raw.x
  obtain ⟨h_high, h_y⟩ := h_height.highlight_axis Length.minRadius.2 raw.radiusY raw.y
  rw [Highlight.forall_numbers]
  constructor
  · rintro ⟨-, -, -, -, h_opacity⟩
    exact (isFinite_roundMilli _).mp h_opacity
  · exact fun h_opacity => ⟨h_x, h_y, h_wide, h_high, (isFinite_roundMilli _).mpr h_opacity⟩

end Overlays

/-! ### Timelines -/

namespace Timeline

variable {t : Timeline Float} {s : Span Float}

/-- The ends of a span are lengths, since the spans tile the clip. -/
theorem Tiled.length_span (h : t.Tiled) (h_duration : Length 1013 t.duration)
    (hs : s ∈ t.spans) : Length 1013 s.start ∧ Length 1013 s.stop := by
  have h_lt := h.tiles.start_lt_stop s hs
  have h_start := h.tiles.value_le_start s hs
  have h_stop := h.tiles.value_stop_le s hs
  have h_order := value_lt_of_lt h_lt
  rw [value_zero] at h_start
  exact ⟨.of_le (isNumber_left_of_lt h_lt) h_start h_duration (h_order.le.trans h_stop),
    .of_le (isNumber_right_of_lt h_lt) (h_start.trans h_order.le) h_duration h_stop⟩

theorem Tiled.length_trimRange (h : t.Tiled) (h_duration : Length 1013 t.duration) :
    Length 1013 t.trimRange.start ∧ Length 1013 t.trimRange.stop := by
  unfold trimRange
  split
  · next first last h_first h_last =>
    have h_mem := List.mem_of_mem_filter (List.mem_of_mem_head? h_first)
    have h_mem' := List.mem_of_mem_filter (List.mem_of_getLast? h_last)
    exact ⟨(h.length_span h_duration h_mem).1, (h.length_span h_duration h_mem').2⟩
  · exact ⟨.zero _, h_duration⟩

/-- **A timeline has thousandths if its speeds have**: its spans lie in the clip. -/
theorem Tiled.finite_iff (h : t.Tiled) (h_duration : Length 1013 t.duration) :
    (∀ x ∈ (Export.ofTimeline t).numbers, isFinite x = true) ↔
      ∀ s ∈ t.spans, (s.speed * 1000.0).isFinite = true := by
  -- of a span only the speed can overflow: its ends are lengths below `2^1013`
  have h_spans : (∀ x ∈ (Export.ofTimeline t).spans.flatMap SpanExport.numbers,
      isFinite x = true) ↔ ∀ s ∈ t.spans, (s.speed * 1000.0).isFinite = true := by
    refine List.forall_mem_flatMap.trans
      (List.forall_mem_map.trans (forall₂_congr fun s hs => ?_))
    obtain ⟨h_start, h_stop⟩ := h.length_span h_duration hs
    rw [SpanExport.forall_numbers]
    constructor
    · rintro ⟨-, -, h_speed⟩
      exact (isFinite_roundMilli s.speed).mp h_speed
    · exact fun h_speed => ⟨h_start.below.roundMilli_twice.1, h_stop.below.roundMilli_twice.1,
        (isFinite_roundMilli s.speed).mpr h_speed⟩
  -- and so are the ends of the range
  have h_range : ∀ x ∈ (Export.ofTimeline t).trimRange.numbers, isFinite x = true := by
    obtain ⟨h_start, h_stop⟩ := h.length_trimRange h_duration
    rw [TimeRange.forall_numbers]
    exact ⟨h_start.below.roundMilli_twice.1, h_stop.below.roundMilli_twice.1⟩
  rw [TimelineExport.numbers, List.forall_mem_append, h_spans]
  exact and_iff_left h_range

end Timeline

/-! ### Opacities -/

namespace Clip

section Opacities

variable {α : Type} [Scalar α] {P : α → Prop} {c : Clip α}

/-- Something holds of every opacity that a clip stores. -/
structure Opacities (P : α → Prop) (c : Clip α) : Prop where
  track : c.highlight.Each fun v => P v.opacity
  copied : ∀ value : Highlight α, c.clipboard.held? = some value → P value.opacity

/-- The opacity that an edit writes. Bringing a highlight into the frame leaves it alone. -/
def Edit.opacity? : Edit α → Option α
  | .setHighlight _ value => some value.opacity
  | .commitHighlight edit => some edit.value.opacity
  | _ => none

/-- A clip is loaded with a highlight in the default style. -/
theorem opacities_loaded (h : P Highlight.defaultOpacity) (metadata : Metadata α) (fps : Nat)
    (timeline : Timeline α) : (loaded metadata fps timeline).Opacities P :=
  ⟨.create (P := fun v : Highlight α => P v.opacity) h _, by rintro value ⟨⟩⟩

namespace Opacities

/-- Bringing a highlight into the frame does not touch its opacity. -/
theorem setHighlight (h : c.Opacities P) {value : Highlight α} (h_value : P value.opacity)
    (frame : Frame) : (c.setHighlight frame value).state.Opacities P :=
  have h_constrained : P (value.constrain c.metadata.frame).opacity := h_value
  ⟨h.track.insert h_constrained frame, h.copied⟩

omit [Scalar α] in
theorem copyHighlight (h : c.Opacities P) (frame : Frame) :
    (c.copyHighlight frame).state.Opacities P := by
  rcases c.clipboard.copyFrom_cases c.highlight frame with h_eq | ⟨value, h_get, h_eq⟩
  · rw [Clip.copyHighlight, h_eq]
    exact h
  · rw [Clip.copyHighlight, h_eq]
    refine ⟨h.track, ?_⟩
    rintro value ⟨⟩
    exact h.track.get? h_get

omit [Scalar α] in
/-- A crop on the clipboard is no highlight. -/
theorem copyCrop (h : c.Opacities P) (frame : Frame) : (c.copyCrop frame).state.Opacities P := by
  rcases c.clipboard.copyFrom_cases c.crop frame with h_eq | ⟨value, -, h_eq⟩
  · rw [Clip.copyCrop, h_eq]
    exact h
  · rw [Clip.copyCrop, h_eq]
    exact ⟨h.track, by rintro value ⟨⟩⟩

omit [Scalar α] in
theorem pasteHighlight (h : c.Opacities P) (frame : Frame) :
    (c.pasteHighlight frame).state.Opacities P := by
  rcases c.clipboard.pasteInto_cases c.highlight frame with h_eq | ⟨value, h_held, h_eq⟩
  · rw [Clip.pasteHighlight, h_eq]
    exact h
  · rw [Clip.pasteHighlight, h_eq]
    exact ⟨h.track.insert (h.copied value h_held) frame, h.copied⟩

theorem setRatio (h : c.Opacities P) (ratio : AspectRatio) (frame : Frame) :
    (c.setRatio ratio frame).state.Opacities P := by
  rw [Clip.setRatio]
  split
  · exact h
  · dsimp only
    split
    · exact ⟨h.track, h.copied⟩
    · exact ⟨h.track, h.copied⟩

theorem setHighlightDuration (h : c.Opacities P) (seconds : α) :
    (c.setHighlightDuration seconds).state.Opacities P := by
  rw [Clip.setHighlightDuration]
  split
  · exact h
  · exact ⟨h.track, h.copied⟩

/-- What holds of the opacities of a clip and of the one that an edit writes holds afterwards. -/
theorem apply (h : c.Opacities P) {e : Edit α} (h_edit : ∀ x, e.opacity? = some x → P x) :
    (c.apply e).state.Opacities P := by
  cases e with
  | setHighlight frame value => exact h.setHighlight (h_edit _ rfl) frame
  | commitHighlight edit => exact h.setHighlight (h_edit _ rfl) edit.frame
  | deleteHighlight frame => exact ⟨h.track.erase frame, h.copied⟩
  | copyHighlight frame => exact h.copyHighlight frame
  | pasteHighlight frame => exact h.pasteHighlight frame
  | copyCrop frame => exact h.copyCrop frame
  | setRatio ratio frame => exact h.setRatio ratio frame
  | setHighlightDuration seconds => exact h.setHighlightDuration seconds
  -- nothing else touches the highlights or the clipboard
  | _ => exact ⟨h.track, h.copied⟩

/-- **What holds of all opacities of a run**: it held of those at the beginning, and it holds of
those that the run writes. -/
theorem run (h : c.Opacities P) {edits : List (Edit α)}
    (h_edits : ∀ e ∈ edits, ∀ x, e.opacity? = some x → P x) : (c.run edits).Opacities P := by
  induction edits generalizing c with
  | nil => exact h
  | cons e rest ih =>
    exact ih (h.apply (h_edits e List.mem_cons_self))
      fun e h_mem => h_edits e (List.mem_cons_of_mem _ h_mem)

end Opacities

end Opacities

end Clip

/-! ### Descriptions -/

/-- **A clip of ordinary size**: a thousand times its width, its height and its length are numbers,
with room for rounding. -/
structure Metadata.Ordinary (metadata : Metadata Float) : Prop where
  width : metadata.width ≤ 8e304
  height : metadata.height ≤ 8e304
  duration : metadata.duration ≤ 8e304

namespace Clip

variable {settings : Settings Float} {metadata : Metadata Float} {fps : Nat} {c c₀ : Clip Float}

/-- A measure that was accepted is a length, if it is of ordinary size. -/
theorem length_of_check {measure : Measure} {x : Float} (h : Metadata.check measure x = .ok ())
    (h_le : x ≤ 8e304) : Length 1013 x := by
  rw [Metadata.check] at h
  split at h
  · exact absurd h (by simp)
  · next h_not =>
    simp only [Bool.or_eq_true, Bool.not_eq_true', decide_eq_true_eq, not_or,
      Bool.not_eq_false] at h_not
    have h_number := isNumber_of_isFinite h_not.1
    have h_pos := value_lt_of_lt ((Gauge.not_le h_number isNumber_zero).mp h_not.2)
    rw [value_zero] at h_pos
    -- the largest measure that counts as ordinary is below `2^1013`
    have h_literal : value (8e304 : Float) ≤ 2 ^ 1013 := by decide +kernel
    refine ⟨⟨h_number, (abs_of_pos h_pos).trans_le ?_⟩, h_pos.le⟩
    exact (value_le_of_le h_le).trans h_literal

/-- What a clip is loaded with are lengths. -/
theorem lengths_of_validate (h : metadata.validate = .ok ()) (h_ordinary : metadata.Ordinary) :
    Length 1013 metadata.width ∧ Length 1013 metadata.height ∧ Length 1013 metadata.duration := by
  simp only [Metadata.validate] at h
  cases h_width : Metadata.check .width metadata.width with
  | error fault => simp [h_width, bind, Except.bind] at h
  | ok =>
    cases h_height : Metadata.check .height metadata.height with
    | error fault => simp [h_width, h_height, bind, Except.bind] at h
    | ok =>
      rw [h_width, h_height] at h
      exact ⟨length_of_check h_width h_ordinary.width, length_of_check h_height h_ordinary.height,
        length_of_check h h_ordinary.duration⟩

/-! ### Clips -/

/-- **A clip that has thousandths**: none of its opacities and speeds is so large that a thousand
times it is not finite any more. -/
structure HasThousandths (c : Clip Float) : Prop where
  opacity : ∀ k ∈ c.highlight.shown, (k.value.opacity * 1000.0).isFinite = true
  speed : ∀ s ∈ c.timeline.spans, (s.speed * 1000.0).isFinite = true

section Finite

variable (h_width : Length 1013 metadata.width) (h_height : Length 1013 metadata.height)
include h_width h_height

/-- Every crop of the payload was brought into the frame. -/
theorem Sound.finite_crop (h : c.Sound metadata fps) :
    ∀ x ∈ c.payload.crop.flatMap fun k => k.value.numbers, x.isFinite = true := by
  refine List.forall_mem_flatMap.mpr (List.forall_mem_map.mpr fun k hk => ?_)
  exact (h.crop_framed.shown k hk).finite h_width h_height

/-- And so was every highlight, but for its opacity. -/
theorem Sound.finite_highlight_iff (h : c.Sound metadata fps) :
    (∀ x ∈ c.payload.highlight.keyframes.flatMap fun k => k.value.numbers, x.isFinite = true) ↔
      ∀ k ∈ c.highlight.shown, (k.value.opacity * 1000.0).isFinite = true := by
  refine List.forall_mem_flatMap.trans (List.forall_mem_map.trans (forall₂_congr fun k hk => ?_))
  exact (h.highlight_framed.shown k hk).finite_iff h_width h_height

end Finite

/-- The highlight is shown for some time, and not for longer than the clip. -/
theorem Kept.finite_highlightDuration (h : c.Kept metadata fps)
    (h_duration : Length 1013 metadata.duration) :
    (roundMilli c.highlightDuration).isFinite = true := by
  have h_pos := h.zero_lt_highlightDuration
  have h_value := value_lt_of_lt h_pos
  rw [value_zero] at h_value
  have h_length : Length 1013 c.highlightDuration := .of_le (isNumber_right_of_lt h_pos)
    h_value.le h_duration (value_le_of_le h.highlightDuration_le)
  exact h_length.below.roundMilli_twice.1

/-- **A payload is finite exactly if the clip has thousandths**: everything but opacities and speeds
was brought into the frame or into the clip. -/
theorem Reachable.finite_iff (h : c.Reachable settings.validate metadata fps)
    (h_ordinary : metadata.Ordinary) :
    (∀ x ∈ c.payload.numbers, x.isFinite = true) ↔ c.HasThousandths := by
  have h_sound := h.sound
  have h_kept := h.kept settings.zero_lt_boundaryEpsilon_validate
  obtain ⟨h_width, h_height, h_duration⟩ : Length 1013 metadata.width ∧
      Length 1013 metadata.height ∧ Length 1013 metadata.duration := by
    -- the measures were checked when the clip was loaded
    obtain ⟨_, _, h_ok, -⟩ := h
    exact lengths_of_validate (load_eq_ok h_ok).1 h_ordinary
  have h_crop := h_sound.finite_crop h_width h_height
  have h_highlight := h_sound.finite_highlight_iff h_width h_height
  have h_last := h_kept.finite_highlightDuration h_duration
  have h_timeline := h_kept.timeline_sound.tiled.finite_iff (h_kept.timeline_duration ▸ h_duration)
  -- the numbers of the payload, part by part: crops, highlights, spans
  rw [Export.numbers, List.forall_mem_append, List.forall_mem_append, HighlightExport.numbers,
    List.forall_mem_cons, h_highlight]
  constructor
  · rintro ⟨-, ⟨-, h_opacity⟩, h_speed⟩
    exact ⟨h_opacity, h_timeline.mp h_speed⟩
  · exact fun h => ⟨h_crop, ⟨h_last, h.opacity⟩, h_timeline.mpr h.speed⟩

/-! ### Texts -/

/-- The payload as it is handed to the renderer. -/
def exported (c : Clip Float) : String := (Json.encode c.payload).compact

/-- The last frame of a clip can be counted. -/
theorem ofTime_le (time : Float) (fps : Nat) : max (Frame.ofTime time fps) 1 ≤ Frame.limit := by
  refine max_le ?_ (by decide)
  rw [Frame.ofTime]
  split
  · exact Nat.zero_le _
  · exact Nat.le_of_lt_succ (UInt32.toNat_lt _)

/-- A clip has no keyframe past its end frame. -/
theorem Sound.counted (h : c.Sound metadata fps) : c.payload.Counted where
  crop k hk := by
    obtain ⟨shown, h_shown, rfl⟩ := List.mem_map.mp hk
    have h_frame := h.crop.le_endFrame shown.frame
      (Track.map_frame_shown c.crop ▸ List.mem_map_of_mem h_shown)
    exact (h_frame.trans_eq h.crop_endFrame).trans (ofTime_le _ _)
  highlight k hk := by
    obtain ⟨shown, h_shown, rfl⟩ := List.mem_map.mp hk
    have h_frame := h.highlight.le_endFrame shown.frame
      (Track.map_frame_shown c.highlight ▸ List.mem_map_of_mem h_shown)
    exact (h_frame.trans_eq h.highlight_endFrame).trans (ofTime_le _ _)

/-- Every number of a payload was rounded. -/
theorem exists_roundMilli {α : Type} [Scalar α] (c : Clip α) :
    ∀ x ∈ c.payload.numbers, ∃ y, x = roundMilli y := by
  rw [Export.numbers, List.forall_mem_append, List.forall_mem_append, HighlightExport.numbers,
    List.forall_mem_cons, TimelineExport.numbers, List.forall_mem_append]
  refine ⟨?crops, ⟨⟨_, rfl⟩, ?highlights⟩, ?spans, TimeRange.forall_numbers.mpr ⟨⟨_, rfl⟩, _, rfl⟩⟩
  case crops =>
    refine List.forall_mem_flatMap.mpr (List.forall_mem_map.mpr fun k _ => ?_)
    exact Crop.forall_numbers.mpr ⟨⟨_, rfl⟩, ⟨_, rfl⟩, ⟨_, rfl⟩, _, rfl⟩
  case highlights =>
    refine List.forall_mem_flatMap.mpr (List.forall_mem_map.mpr fun k _ => ?_)
    exact Highlight.forall_numbers.mpr ⟨⟨_, rfl⟩, ⟨_, rfl⟩, ⟨_, rfl⟩, ⟨_, rfl⟩, _, rfl⟩
  case spans =>
    refine List.forall_mem_flatMap.mpr (List.forall_mem_map.mpr fun s _ => ?_)
    exact SpanExport.forall_numbers.mpr ⟨⟨_, rfl⟩, ⟨_, rfl⟩, _, rfl⟩

/-- **A payload is as good as its numbers are finite**: the text has a null exactly where a number
is not, and it can be read exactly if all are. -/
theorem Sound.exported_iff (h : c.Sound metadata fps) :
    Json.parse? c.exported = some (Json.encode c.payload) ∧
      ((Json.encode c.payload).HasNull ↔ ∃ x ∈ c.payload.numbers, x.isFinite ≠ true) ∧
      ((∃ p, Json.decodeText (Export Float) c.exported = .ok p) ↔
        ∀ x ∈ c.payload.numbers, x.isFinite = true) := by
  have h_coded := coded_export h.counted
  have h_parse : Json.parse? c.exported = some (Json.encode c.payload) :=
    Json.parse?_compact h_coded.wellFormed
  refine ⟨h_parse, h_coded.hasNull_iff, ?_⟩
  rw [Json.decodeText, h_parse]
  refine h_coded.readable_iff.trans (forall₂_congr fun x hx => ?_)
  constructor
  · rintro ⟨y, h_reads⟩
    exact Json.isFinite_of_reads h_reads
  · intro h_finite
    -- thousandths leave room up to the largest number, which the reader needs
    obtain ⟨y, rfl⟩ := c.exists_roundMilli x hx
    exact Json.exists_reads_float (below_roundMilli h_finite)

/-! ### Runs -/

/-- **An edit that writes thousandths**: of the opacity and of the speed that it would store, a
thousand times is finite. -/
structure Edit.HasThousandths (e : Edit Float) : Prop where
  opacity : ∀ x, e.opacity? = some x → (x * 1000.0).isFinite = true
  speed : ∀ i v, e = .timeline (.setSpeed i v) → isFinite v = true → ¬ v ≤ 0 →
    (v * 1000.0).isFinite = true

theorem HasThousandths.of_run (h : load settings metadata fps = .ok c₀) {edits : List (Edit Float)}
    (h_edits : ∀ e ∈ edits, e.HasThousandths) : (c₀.run edits).HasThousandths := by
  have h_default : (Highlight.defaultOpacity * 1000.0 : Float).isFinite = true := by decide +kernel
  have h_normal : ((1.0 : Float) * 1000.0).isFinite = true := by decide +kernel
  obtain ⟨-, -, timeline, h_timeline, rfl⟩ := load_eq_ok h
  -- a clip as it is loaded has one span, at normal speed
  have h_loaded : ∀ s ∈ (loaded metadata fps timeline).timeline.spans,
      (s.speed * 1000.0).isFinite = true := by
    obtain ⟨-, -, rfl⟩ := Timeline.create_eq_ok h_timeline
    intro s hs
    obtain rfl := List.mem_singleton.mp hs
    exact h_normal
  -- edits write nothing else than what they were given
  have h_opacities : ((loaded metadata fps timeline).run edits).Opacities
      fun x => (x * 1000.0).isFinite = true :=
    (opacities_loaded h_default metadata fps timeline).run fun e h_mem => (h_edits e h_mem).opacity
  have h_speeds : ∀ s ∈ ((loaded metadata fps timeline).run edits).timeline.spans,
      (s.speed * 1000.0).isFinite = true :=
    speeds_run (P := fun x => (x * 1000.0).isFinite = true) h_loaded edits
      fun i v h_mem => (h_edits _ h_mem).speed i v rfl
  exact ⟨h_opacities.track.shown, h_speeds⟩

/-- **When payloads are finite.** Whatever numbers a run of edits carries, the payload of a clip of
ordinary size is finite exactly if the opacities and speeds that the clip ends up with have
thousandths. The text is always well formed. It has no null, and can be read back, in the same case.
A run has thousandths in the end if all that it writes has. -/
theorem exported_finite_iff (h : load settings.validate metadata fps = .ok c₀)
    (h_ordinary : metadata.Ordinary) (edits : List (Edit Float)) :
    ((∀ x ∈ (c₀.run edits).payload.numbers, x.isFinite = true) ↔
        (c₀.run edits).HasThousandths) ∧
      Json.parse? (c₀.run edits).exported = some (Json.encode (c₀.run edits).payload) ∧
      (¬ (Json.encode (c₀.run edits).payload).HasNull ↔ (c₀.run edits).HasThousandths) ∧
      ((∃ p, Json.decodeText (Export Float) (c₀.run edits).exported = .ok p) ↔
        (c₀.run edits).HasThousandths) ∧
      ((∀ e ∈ edits, e.HasThousandths) → (c₀.run edits).HasThousandths) := by
  have h_reachable : (c₀.run edits).Reachable settings.validate metadata fps := ⟨c₀, edits, h, rfl⟩
  have h_finite := h_reachable.finite_iff h_ordinary
  obtain ⟨h_parse, h_null, h_decode⟩ := h_reachable.sound.exported_iff
  -- a text without `null` is one whose numbers are all finite, and that is decoded
  refine ⟨h_finite, h_parse, ?_, h_decode.trans h_finite, HasThousandths.of_run h⟩
  rw [h_null, ← h_finite]
  simp only [ne_eq, not_exists, not_and, not_not]

/-- A clip that is sped up as far as a thousand times the speed is still a number, with a highlight
of which nothing but its opacity is a number. -/
theorem exported_finite_iff_of_fast :
    ∃ c₀ : Clip Float, load Settings.default.validate ⟨1920.0, 1080.0, 2.0⟩ 30 = .ok c₀ ∧
      Metadata.Ordinary ⟨1920.0, 1080.0, 2.0⟩ ∧
      (c₀.run [.setHighlight 40 ⟨0 / 0, 1 / 0, 0 / 0, 0 / 0, 0.5, "red"⟩,
        .timeline (.addBoundary 1.0), .timeline (.setSpeed 1 1e305)]).HasThousandths ∧
      ∃ p, Json.decodeText (Export Float)
        (c₀.run [.setHighlight 40 ⟨0 / 0, 1 / 0, 0 / 0, 0 / 0, 0.5, "red"⟩,
          .timeline (.addBoundary 1.0), .timeline (.setSpeed 1 1e305)]).exported = .ok p := by
  have h : load Settings.default.validate ⟨1920.0, 1080.0, 2.0⟩ 30 = .ok (loaded
      (⟨1920.0, 1080.0, 2.0⟩ : Metadata Float) 30
      ⟨2.0, [⟨0, 2.0, 1.0, false⟩], [], 0.01, .keepRight⟩) :=
    load_of_valid (by decide +kernel) (by decide) (by decide +kernel)
  have h_ordinary : Metadata.Ordinary ⟨1920.0, 1080.0, 2.0⟩ :=
    ⟨by decide +kernel, by decide +kernel, by decide +kernel⟩
  -- a highlight that is no number at all is brought into the frame; the speed is just slow enough
  have h_thousandths : (run (loaded (⟨1920.0, 1080.0, 2.0⟩ : Metadata Float) 30
      ⟨2.0, [⟨0, 2.0, 1.0, false⟩], [], 0.01, .keepRight⟩)
      [.setHighlight 40 ⟨0 / 0, 1 / 0, 0 / 0, 0 / 0, 0.5, "red"⟩, .timeline (.addBoundary 1.0),
        .timeline (.setSpeed 1 1e305)]).HasThousandths :=
    ⟨by decide +kernel, by decide +kernel⟩
  exact ⟨_, h, h_ordinary, h_thousandths,
    (exported_finite_iff h h_ordinary _).2.2.2.1.mpr h_thousandths⟩

/-- A speed that is finite and accepted, and is exported as no number at all. -/
theorem exported_not_finite :
    ∃ c : Clip Float, c.Reachable Settings.default.validate ⟨1920.0, 1080.0, 2.0⟩ 30 ∧
      (∀ s ∈ c.timeline.spans, s.speed = 1e306 ∧ isFinite s.speed = true) ∧
      ¬ (∀ x ∈ c.payload.numbers, x.isFinite = true) ∧ (Json.encode c.payload).HasNull ∧
      ¬ ∃ p, Json.decodeText (Export Float) c.exported = .ok p := by
  obtain ⟨c, h_c⟩ : ∃ c : Clip Float, run (loaded (⟨1920.0, 1080.0, 2.0⟩ : Metadata Float) 30
      ⟨2.0, [⟨0, 2.0, 1.0, false⟩], [], 0.01, .keepRight⟩) [.timeline (.setSpeed 0 1e306)] = c :=
    ⟨_, rfl⟩
  have h : c.Reachable Settings.default.validate ⟨1920.0, 1080.0, 2.0⟩ 30 :=
    ⟨_, _, load_of_valid (by decide +kernel) (by decide) (by decide +kernel), h_c⟩
  have h_facts : (∀ s ∈ c.timeline.spans, s.speed = 1e306 ∧ isFinite s.speed = true) ∧
      ∃ x ∈ c.payload.numbers, x.isFinite ≠ true := by
    rw [← h_c]
    decide +kernel
  obtain ⟨h_speed, x, hx, h_not⟩ := h_facts
  obtain ⟨-, h_null, h_decode⟩ := h.sound.exported_iff
  have h_all : ¬ ∀ x ∈ c.payload.numbers, x.isFinite = true := fun h_all => h_not (h_all x hx)
  exact ⟨c, h, h_speed, h_all, h_null.mpr ⟨x, hx, h_not⟩, fun h => h_all (h_decode.mp h)⟩

end Clip

end ClipEdit
