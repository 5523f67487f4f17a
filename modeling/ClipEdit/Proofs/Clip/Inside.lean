import ClipEdit.Proofs.Clip.Reachable
import ClipEdit.Proofs.Track.Preview

/-!
# Overlays inside the frame

The renderer cuts a crop out of the frame of the clip, so a crop that reached beyond the frame, or
that was empty, could not be exported. No edit checks for that: each overlay is brought into the
frame on its own when it is written, and what is shown between two keyframes is not checked at all.

`overlays_inside` says that nothing more is needed, in exact arithmetic and for every frame whose
sides are multiples of two thousandths and which has room for the smallest overlays. What is stored
was brought into the frame (`Sound`), so it is inside the frame; what is shown is blended from that,
and the inside of a frame is closed under blending.
-/

namespace ClipEdit

open Scalar Exact

namespace Clip

variable {settings : Settings ℚ} {metadata : Metadata ℚ} {fps : Nat} {c : Clip ℚ}

namespace Sound

/-- **Shown crops are inside the frame**, also between keyframes. -/
theorem cropAt_inside (h : c.Sound metadata fps) (h_width : IsMilli metadata.width)
    (h_height : IsMilli metadata.height) (h_wide : 10 ≤ metadata.width)
    (h_high : 10 ≤ metadata.height) (frame : Frame) : (c.cropAt frame).Inside metadata.frame := by
  have h_each : c.crop.Each (Crop.Inside metadata.frame) :=
    h.crop_framed.imp fun _ h_framed => h_framed.inside h_width h_height h_wide h_high
  exact h.crop.sample_of_each h_each (fun _ _ _ ha hb => ha.blend hb) frame

/-- **Shown highlights are inside the frame**, also between keyframes. -/
theorem highlightAt_inside (h : c.Sound metadata fps) (h_width : IsMilli (metadata.width / 2))
    (h_height : IsMilli (metadata.height / 2)) (h_wide : 20 ≤ metadata.width)
    (h_high : 30 ≤ metadata.height) (frame : Frame) :
    (c.highlightAt frame).Inside metadata.frame := by
  have h_each : c.highlight.Each (Highlight.Inside metadata.frame) :=
    h.highlight_framed.imp fun _ h_framed => h_framed.inside h_width h_height h_wide h_high
  exact h.highlight.sample_of_each h_each (fun _ _ _ ha hb => ha.blend hb) frame

end Sound

/-- **Overlays stay inside the frame.** Whatever is done to a clip, bringing a stored or copied
overlay into the frame again would not change it, and every overlay that is shown lies inside the
frame and is not smaller than allowed. -/
theorem overlays_inside (h : c.Reachable settings metadata fps)
    (h_width : ∃ n : ℤ, metadata.width = n * 0.002) (h_wide : 20 ≤ metadata.width)
    (h_height : ∃ n : ℤ, metadata.height = n * 0.002) (h_high : 30 ≤ metadata.height) :
    (∀ k ∈ c.crop.keyframes, k.value.constrain metadata.frame = k.value) ∧
      (∀ k ∈ c.highlight.keyframes, k.value.constrain metadata.frame = k.value) ∧
      (∀ value, c.clipboard.held = some (.crop value) →
        value.constrain metadata.frame = value) ∧
      (∀ value, c.clipboard.held = some (.highlight value) →
        value.constrain metadata.frame = value) ∧
      ∀ frame, (c.cropAt frame).Inside metadata.frame ∧
        (c.highlightAt frame).Inside metadata.frame := by
  have h_sound := h.sound
  have h_width' := isMilli_half h_width
  have h_height' := isMilli_half h_height
  -- what is stored and what was copied are fixed points; what is drawn lies between fixed points
  refine ⟨?_, ?_, ?_, ?_, ?_⟩
  · exact fun k h_mem => (h_sound.crop_framed.keyframes k h_mem).constrain_eq
  · exact fun k h_mem => (h_sound.highlight_framed.keyframes k h_mem).constrain_eq
  · intro value h_held
    refine (h_sound.copied_crop value ?_).constrain_eq
    rw [Clipboard.held?, h_held]
    rfl
  · intro value h_held
    refine (h_sound.copied_highlight value ?_).constrain_eq
    rw [Clipboard.held?, h_held]
    rfl
  · intro frame
    constructor
    · exact h_sound.cropAt_inside h_width'.of_half h_height'.of_half (by linarith) (by linarith)
        frame
    · exact h_sound.highlightAt_inside h_width' h_height' h_wide h_high frame

/-- A crop that hangs over the edge of a small frame is moved, copied, pasted and blended. -/
theorem overlays_inside_of_paste :
    ∃ c : Clip ℚ, c.Reachable .default ⟨20, 30.002, 4⟩ 25 ∧
      (∃ n : ℤ, (20 : ℚ) = n * 0.002) ∧ (20 : ℚ) ≤ 20 ∧
      (∃ n : ℤ, (30.002 : ℚ) = n * 0.002) ∧ (30 : ℚ) ≤ 30.002 ∧
      c.clipboard.held = some (.crop ⟨8, 20.002, 12, 10⟩) ∧
      (c.cropAt 70).Inside ⟨20, 30.002⟩ ∧ (c.highlightAt 70).Inside ⟨20, 30.002⟩ := by
  have h : (run (loaded (⟨20, 30.002, 4⟩ : Metadata ℚ) 25
      ⟨4, [⟨0, 4, 1.0, false⟩], [], 0.01, .keepRight⟩)
      [.setCrop 40 ⟨15, 28, 12, 3⟩, .copyCrop 40, .pasteCrop 100, .setRatio (.fixed 2 3) 0,
        .setHighlight 50 ⟨-3, 100, 4, 90, 0.5, "#000000"⟩]).Reachable .default ⟨20, 30.002, 4⟩ 25 :=
    ⟨_, _, load_of_valid (by decide +kernel) (by decide) (by decide +kernel), rfl⟩
  -- the smallest frame that has room, to the last thousandth
  have h_width : ∃ n : ℤ, (20 : ℚ) = n * 0.002 := ⟨10000, by norm_num⟩
  have h_height : ∃ n : ℤ, (30.002 : ℚ) = n * 0.002 := ⟨15001, by norm_num⟩
  have h_wide : (20 : ℚ) ≤ 20 := by norm_num
  have h_high : (30 : ℚ) ≤ 30.002 := by norm_num
  obtain ⟨-, -, -, -, h_inside⟩ := overlays_inside h h_width h_wide h_height h_high
  exact ⟨_, h, h_width, h_wide, h_height, h_high, by decide +kernel, h_inside 70⟩

end Clip

end ClipEdit
