import ClipEdit.Proofs.Clip.Reachable
import ClipEdit.Proofs.Track.Preview

/-!
# The payload and the preview

The editor previews a clip by sampling its tracks, and the renderer draws it from the keyframes of
the payload. The two read different data: `sample` blends towards what the end stores, while the
payload has what the end shows, and rounds every number.

`payload_interpolates_preview` says that the user sees no difference, in exact arithmetic: at every
frame of the clip the keyframes of the payload show the crop of the preview, and its highlight but
for the opacity, which may be half a thousandth off. Three facts make it so. The end stores what it
shows (`Track.Sound`); whatever is stored was brought into the frame, which has already rounded its
geometry (`Clip.Sound`); and blending does not spread the error that rounding made in the opacity
(`Highlight.Matches.blend`).
-/

namespace ClipEdit

open Scalar Exact

/-! ### Rounding a highlight -/

namespace Highlight

variable {frame : Size .video ℚ} {a a' b b' h : Highlight ℚ} {s : ℚ}

/-- **The same highlight to the eye**: only the opacity may be off, by half a thousandth. -/
structure Matches (h h' : Highlight ℚ) : Prop where
  x_eq : h'.x = h.x
  y_eq : h'.y = h.y
  radiusX_eq : h'.radiusX = h.radiusX
  radiusY_eq : h'.radiusY = h.radiusY
  color_eq : h'.color = h.color
  opacity_near : |h'.opacity - h.opacity| ≤ 0.0005

theorem Framed.matches_rounded (h_framed : h.Framed frame) : h.Matches h.rounded := by
  rw [h_framed.rounded_eq]
  refine ⟨rfl, rfl, rfl, rfl, rfl, ?_⟩
  calc |roundMilli h.opacity - h.opacity| ≤ 1 / 2000 := abs_roundMilli_sub_le h.opacity
    _ = 0.0005 := by norm_num

/-- Blends of opacities are no further apart than the opacities. -/
theorem Matches.blend (ha : a.Matches a') (hb : b.Matches b') (h_nonneg : 0 ≤ s)
    (h_le_one : s ≤ 1) : (Blend.blend a b s : Highlight ℚ).Matches (Blend.blend a' b' s) := by
  obtain ⟨ha_lo, ha_hi⟩ := abs_le.mp ha.opacity_near
  obtain ⟨hb_lo, hb_hi⟩ := abs_le.mp hb.opacity_near
  refine ⟨?_, ?_, ?_, ?_, ha.color_eq, ?_⟩
  · exact congrArg₂ (fun p q => Scalar.blend p q s) ha.x_eq hb.x_eq
  · exact congrArg₂ (fun p q => Scalar.blend p q s) ha.y_eq hb.y_eq
  · exact congrArg₂ (fun p q => Scalar.blend p q s) ha.radiusX_eq hb.radiusX_eq
  · exact congrArg₂ (fun p q => Scalar.blend p q s) ha.radiusY_eq hb.radiusY_eq
  · -- the error is itself a blend of the two errors
    change |Scalar.blend a'.opacity b'.opacity s - Scalar.blend a.opacity b.opacity s| ≤ 0.0005
    rw [blend_sub_blend, abs_le]
    exact ⟨le_blend ha_lo hb_lo h_nonneg h_le_one, blend_le ha_hi hb_hi h_nonneg h_le_one⟩

end Highlight

namespace Clip

variable {settings : Settings ℚ} {metadata : Metadata ℚ} {fps : Nat} {c : Clip ℚ}

/-- The keyframes of the highlight in the payload. -/
theorem payload_highlight (c : Clip ℚ) :
    c.payload.highlight.keyframes = c.highlight.shown.map fun k => ⟨k.frame, k.value.rounded⟩ :=
  rfl

namespace Sound

/-- Rounding changes nothing about the crops of the payload: they are those that the track shows. -/
theorem payload_crop (h : c.Sound metadata fps) : c.payload.crop = c.crop.shown := by
  change (c.crop.shown.map fun k => ⟨k.frame, k.value.rounded⟩) = c.crop.shown
  conv_rhs => rw [← List.map_id c.crop.shown]
  refine List.map_congr_left fun k h_mem => ?_
  rw [(h.crop_framed.shown k h_mem).rounded_eq]
  rfl

/-- The crops of the payload show the crop of the preview, and nothing else. -/
theorem payload_crop_iff (h : c.Sound metadata fps) {frame : Frame} (h_le : frame ≤ c.endFrame)
    (v : Crop ℚ) : Interpolates c.payload.crop frame v ↔ v = c.cropAt frame := by
  have h_preview : Interpolates c.crop.shown frame (c.cropAt frame) :=
    h.crop.interpolates_sample h_le
  rw [h.payload_crop]
  constructor
  · exact fun h_v => h_v.unique (h.crop.runsTo c.crop.map_frame_shown).ascending h_preview
  · rintro rfl
    exact h_preview

/-- The highlights of the payload show one highlight, which matches that of the preview. -/
theorem exists_payload_highlight (h : c.Sound metadata fps) {frame : Frame}
    (h_le : frame ≤ c.endFrame) :
    ∃ v, Interpolates c.payload.highlight.keyframes frame v ∧ (c.highlightAt frame).Matches v := by
  -- the frames of a clip are counted on its crop track
  rw [← h.highlight_endFrame_eq] at h_le
  have h_preview : Interpolates c.highlight.shown frame (c.highlightAt frame) :=
    h.highlight.interpolates_sample h_le
  exact h_preview.exists_map (fun k h_mem => (h.highlight_framed.shown k h_mem).matches_rounded)
    fun _ _ _ _ _ ha hb => ha.blend hb

end Sound

/-- **The payload reproduces the preview.** The keyframes of the payload stand at the frames of the
tracks, from the first frame of the clip to the last. At every frame between, what they show is the
crop of the preview, and a highlight that matches that of the preview and has the colour of the
keyframe in force. -/
theorem payload_interpolates_preview (h : c.Reachable settings metadata fps) :
    c.payload.crop.map FrameValue.frame = c.crop.frames ∧
      c.payload.highlight.keyframes.map FrameValue.frame = c.highlight.frames ∧
      RunsTo c.payload.crop c.endFrame ∧ RunsTo c.payload.highlight.keyframes c.endFrame ∧
      ∀ frame, frame ≤ c.endFrame →
        (∀ v, Interpolates c.payload.crop frame v ↔ v = c.cropAt frame) ∧
        ∃ v, (∀ w, Interpolates c.payload.highlight.keyframes frame w ↔ w = v) ∧
          (c.highlightAt frame).Matches v ∧
          ∃ k, IsLatest c.payload.highlight.keyframes frame k ∧ v.color = k.value.color := by
  have h_sound := h.sound
  have h_crop : c.payload.crop.map FrameValue.frame = c.crop.frames := by
    rw [h_sound.payload_crop, Track.map_frame_shown]
  have h_highlight : c.payload.highlight.keyframes.map FrameValue.frame = c.highlight.frames := by
    rw [payload_highlight, List.map_map, ← Track.map_frame_shown]
    rfl
  have h_crop_runs : RunsTo c.payload.crop c.endFrame := h_sound.crop.runsTo h_crop
  have h_highlight_runs : RunsTo c.payload.highlight.keyframes c.endFrame := by
    rw [← h_sound.highlight_endFrame_eq]
    exact h_sound.highlight.runsTo h_highlight
  -- at one frame: crops agree exactly, a highlight is shown by the one value that is interpolated
  refine ⟨h_crop, h_highlight, h_crop_runs, h_highlight_runs, ?_⟩
  intro frame h_le
  refine ⟨h_sound.payload_crop_iff h_le, ?_⟩
  obtain ⟨v, h_v, h_matches⟩ := h_sound.exists_payload_highlight h_le
  refine ⟨v, ?_, h_matches, ?_⟩
  · intro w
    constructor
    · exact fun h_w => h_w.unique h_highlight_runs.ascending h_v
    · rintro rfl
      exact h_v
  · -- a blend of two highlights has the colour of the first one
    obtain ⟨k, h_latest, rfl | ⟨w, s, rfl⟩⟩ := h_v.exists_isLatest h_highlight_runs.ascending
    · exact ⟨k, h_latest, rfl⟩
    · exact ⟨k, h_latest, rfl⟩

/-- A third is no opacity that the payload can hold, and still the two agree between keyframes, here
on the way to an end that follows the start. -/
theorem payload_interpolates_preview_of_third :
    ∃ c : Clip ℚ, c.Reachable .default ⟨1920, 1080, 10⟩ 30 ∧ 200 ≤ c.endFrame ∧
      c.highlight.endMode = .implicit ∧
      c.payload.highlight.keyframes.map (fun k => k.value.opacity) = [0.15, 0.333, 0.15] ∧
      (∀ v, Interpolates c.payload.crop 200 v ↔ v = c.cropAt 200) ∧
      ∃ v, (∀ w, Interpolates c.payload.highlight.keyframes 200 w ↔ w = v) ∧
        (c.highlightAt 200).Matches v := by
  have h : (run (loaded (⟨1920, 1080, 10⟩ : Metadata ℚ) 30
      ⟨10, [⟨0, 10, 1.0, false⟩], [], 0.01, .keepRight⟩)
      [.setHighlight 60 ⟨500, 400, 90, 80, 1 / 3, "#FF0000"⟩,
        .setRatio (.fixed 9 16) 300]).Reachable .default ⟨1920, 1080, 10⟩ 30 :=
    ⟨_, _, load_of_valid (by decide +kernel) (by decide) (by decide +kernel), rfl⟩
  have h_le : 200 ≤ (run (loaded (⟨1920, 1080, 10⟩ : Metadata ℚ) 30
      ⟨10, [⟨0, 10, 1.0, false⟩], [], 0.01, .keepRight⟩)
      [.setHighlight 60 ⟨500, 400, 90, 80, 1 / 3, "#FF0000"⟩,
        .setRatio (.fixed 9 16) 300]).endFrame := by decide +kernel
  -- frame 200 lies between a keyframe with a third for its opacity and the implicit end
  obtain ⟨-, -, -, -, h_frames⟩ := payload_interpolates_preview h
  obtain ⟨h_crop, v, h_v, h_matches, -⟩ := h_frames 200 h_le
  exact ⟨_, h, h_le, by decide +kernel, by decide +kernel, h_crop, v, h_v, h_matches⟩

end Clip

end ClipEdit
