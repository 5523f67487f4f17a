import ClipEdit.Proofs.Clip.Reachable
import ClipEdit.Proofs.Gesture.Commit
import ClipEdit.Proofs.Track.Preview

/-!
# Gestures that are written

The user watches the live value of a gesture and lets go. What is written then is not that value but
that value brought into the frame once more, and what is shown afterwards is a sample of the track.
Neither makes a difference, in exact arithmetic and for frames of every size:

* `Grip.framed_crop`, `Grip.framed_highlight` — a session brings every live value into the frame, and
  doing it again changes nothing (`Crop.Framed.constrain_eq`, `Highlight.Framed.constrain_eq`), not
  even in a frame that has no room for the smallest overlay or is no whole number of thousandths;
* `Track.Sound.insert_stores` — a write up to the end of a track is carried out, and what is shown
  at its frame is what was written.

`Reachable.commit_stores_live` puts the two together.
-/

namespace ClipEdit

open Scalar

/-! ### Live values are in the frame -/

namespace Grip

variable {α : Type} [Scalar α]

theorem framed_crop (grip : Grip α (Crop α) EdgeHandle) (context : EditContext α)
    (d : Point .video α) : (grip.reshaped context d).Framed context.frame := by
  cases grip with
  | drag value pointer => exact ⟨_, rfl⟩
  | resize value handle pointer => exact ⟨_, rfl⟩

theorem framed_highlight (grip : Grip α (Highlight α) RadiusHandle) (context : EditContext α)
    (d : Point .video α) : (grip.reshaped context d).Framed context.frame := by
  cases grip with
  | drag value pointer => exact ⟨_, rfl⟩
  | resize value handle pointer => exact ⟨_, rfl⟩

end Grip

/-- **What a new session commits is live**, and it has every property that overlays get by being
reshaped in a frame, as long as the session is only given contexts with that frame. -/
theorem Scene.commit_of_create {C α γ η : Type} [PointerCapture C] [Scalar α] [Reshape α γ η]
    {frame : Size .video α} {ratio : AspectRatio} {capture : C} {viewport : Viewport α}
    {events : List (Session.Event α γ η)} {last : Frame} {edit : CommittedEdit γ} {P : γ → Prop}
    (h_reshaped : ∀ (grip : Grip α γ η) context d, context.frame = frame →
      P (grip.reshaped context d))
    (h_contexts : ∀ context, .setContext context ∈ events → context.frame = frame)
    (h_commit : ((create ⟨frame, ratio⟩ capture viewport).run events).answer (.up last)
      = .commit (some edit)) :
    ((create ⟨frame, ratio⟩ capture viewport).run events).session.gesture.live?
        = some edit.value ∧
      edit.frame = last ∧ P edit.value := by
  have h_idle : (create (C := C) (γ := γ) (η := η) ⟨frame, ratio⟩ capture viewport).session.gesture
      = .idle := rfl
  -- whatever is committed was reshaped under a context that the session had at some time
  obtain ⟨h_live, h_frame, grip, context, d, h_value, h_mem⟩ := exists_reshaped h_idle h_commit
  refine ⟨h_live, h_frame, ?_⟩
  rw [h_value]
  refine h_reshaped grip context d ?_
  rcases h_mem with rfl | h_given
  · rfl
  · exact h_contexts context h_given

/-! ### What is written is shown -/

/-- **A write is shown** at the frame where it was made. -/
theorem Track.Sound.insert_stores {V : Type} [Blend ℚ V] {t : Track V} (h : t.Sound)
    {frame : Frame} (h_le : frame ≤ t.endFrame) (value : V) :
    ∃ t', t.insert frame value = .accept t' ∧ t'.get? frame = some value ∧
      t'.sample frame = value := by
  obtain ⟨t', h_eq, h_get⟩ := Track.insert_eq_accept h_le value
  have h_sound : t'.Sound := by
    have h_apply := h.apply (.insert frame value)
    rwa [Track.apply, h_eq] at h_apply
  exact ⟨t', h_eq, h_get, h_sound.sample_eq_of_get? h_get⟩

namespace Clip

variable {settings : Settings ℚ} {metadata : Metadata ℚ} {fps : Nat} {c : Clip ℚ} {frame : Frame}

namespace Sound

/-- **A framed crop is stored as it is.** -/
theorem commitCrop_stores (h : c.Sound metadata fps) {value : Crop ℚ}
    (h_framed : value.Framed c.metadata.frame) (h_le : frame ≤ c.endFrame) :
    ∃ c', c.commitCrop ⟨frame, value⟩ = .accept c' ∧ c'.crop.get? frame = some value ∧
      c'.cropAt frame = value := by
  obtain ⟨t, h_insert, h_get, h_sample⟩ := h.crop.insert_stores h_le value
  refine ⟨{ c with crop := t }, ?_, h_get, h_sample⟩
  rw [commitCrop, setCrop, h_framed.constrain_eq, h_insert]
  rfl

/-- **A framed highlight is stored as it is.** -/
theorem commitHighlight_stores (h : c.Sound metadata fps) {value : Highlight ℚ}
    (h_framed : value.Framed c.metadata.frame) (h_le : frame ≤ c.endFrame) :
    ∃ c', c.commitHighlight ⟨frame, value⟩ = .accept c' ∧
      c'.highlight.get? frame = some value ∧ c'.highlightAt frame = value := by
  rw [← h.highlight_endFrame_eq] at h_le
  obtain ⟨t, h_insert, h_get, h_sample⟩ := h.highlight.insert_stores h_le value
  refine ⟨{ c with highlight := t }, ?_, h_get, h_sample⟩
  rw [commitHighlight, setHighlight, h_framed.constrain_eq, h_insert]
  rfl

end Sound

/-- **What was live is what is stored.** A session on an overlay of a reachable clip may be given
other contexts as long as they have the frame of the clip; the one it is made with may have any lock
on the proportions, as `editContext` has that of the clip. When the pointer goes up for a frame of
the clip, and that commits anything, it is the last live value. Writing it is then accepted, and
both the keyframe and the preview at that frame are the very value that was live. The frame of the
clip may be of any size, and the overlay that was grabbed may have been anywhere. No edit changes
the frame of a clip, so the clip may also have been edited while the pointer was down. -/
theorem Reachable.commit_stores_live {C : Type} [PointerCapture C]
    (h : c.Reachable settings metadata fps) (h_le : frame ≤ c.endFrame) (ratio : AspectRatio)
    (capture : C) (viewport : Viewport ℚ) :
    (∀ (events : List (Session.Event ℚ (Crop ℚ) EdgeHandle)) edit,
      let p := (Scene.create ⟨c.metadata.frame, ratio⟩ capture viewport).run events
      (∀ context, .setContext context ∈ events → context.frame = c.metadata.frame) →
      p.answer (.up frame) = .commit (some edit) →
        p.session.gesture.live? = some edit.value ∧
          ∃ c', c.commitCrop edit = .accept c' ∧ c'.crop.get? frame = some edit.value ∧
            c'.cropAt frame = edit.value) ∧
      ∀ (events : List (Session.Event ℚ (Highlight ℚ) RadiusHandle)) edit,
        let p := (Scene.create ⟨c.metadata.frame, ratio⟩ capture viewport).run events
        (∀ context, .setContext context ∈ events → context.frame = c.metadata.frame) →
        p.answer (.up frame) = .commit (some edit) →
          p.session.gesture.live? = some edit.value ∧
            ∃ c', c.commitHighlight edit = .accept c' ∧
              c'.highlight.get? frame = some edit.value ∧ c'.highlightAt frame = edit.value := by
  constructor
  · -- a crop
    intro events edit p h_contexts h_commit
    obtain ⟨h_live, rfl, h_framed⟩ :=
      Scene.commit_of_create (P := Crop.Framed c.metadata.frame)
        (fun grip context d h_eq => h_eq ▸ grip.framed_crop context d) h_contexts h_commit
    exact ⟨h_live, h.sound.commitCrop_stores h_framed h_le⟩
  · -- a highlight
    intro events edit p h_contexts h_commit
    obtain ⟨h_live, rfl, h_framed⟩ :=
      Scene.commit_of_create (P := Highlight.Framed c.metadata.frame)
        (fun grip context d h_eq => h_eq ▸ grip.framed_highlight context d) h_contexts h_commit
    exact ⟨h_live, h.sound.commitHighlight_stores h_framed h_le⟩

/-- A frame that is smaller than the smallest overlays and no whole number of thousandths. The crop
is as wide as the frame and the highlight touches its right edge, and both are rounded beyond it. -/
theorem commit_stores_live_of_tiny_frame :
    ∃ c : Clip ℚ, c.Reachable .default ⟨7.0005, 5.25, 4⟩ 25 ∧
      (∃ c', c.commitCrop ⟨50, ⟨0, 0, 7.001, 5.25⟩⟩ = .accept c' ∧
        c'.crop.get? 50 = some ⟨0, 0, 7.001, 5.25⟩ ∧ c'.cropAt 50 = ⟨0, 0, 7.001, 5.25⟩) ∧
      ∃ c', c.commitHighlight ⟨50, ⟨3.501, 2.625, 3.5, 2.625, 0.5, "#000000"⟩⟩ = .accept c' ∧
        c'.highlight.get? 50 = some ⟨3.501, 2.625, 3.5, 2.625, 0.5, "#000000"⟩ ∧
        c'.highlightAt 50 = ⟨3.501, 2.625, 3.5, 2.625, 0.5, "#000000"⟩ := by
  have h : (run (loaded (⟨7.0005, 5.25, 4⟩ : Metadata ℚ) 25
      ⟨4, [⟨0, 4, 1.0, false⟩], [], 0.01, .keepRight⟩)
      [.setRatio (.fixed 16 9) 0]).Reachable .default ⟨7.0005, 5.25, 4⟩ 25 :=
    ⟨_, _, load_of_valid (by decide +kernel) (by decide) (by decide +kernel), rfl⟩
  obtain ⟨h_crop, h_highlight⟩ := h.commit_stores_live (C := Unit)
    (by decide +kernel : 50 ≤ _) (.fixed 16 9) () (.fit .default ⟨7.0005, 5.25⟩ ⟨500, 250⟩)
  -- a handle that is pulled far to the left, and a body that is moved out of the frame
  obtain ⟨-, h_crop⟩ := h_crop [.downHandle ⟨0, 0, 7, 5⟩ .se ⟨0, 0⟩, .move ⟨-100, 3⟩]
    ⟨50, ⟨0, 0, 7.001, 5.25⟩⟩ (by simp) (by decide +kernel)
  obtain ⟨-, h_highlight⟩ := h_highlight
    [.downBody ⟨9, 9, 2, 2, 0.5, "#000000"⟩ ⟨0, 0⟩, .move ⟨30, 40⟩]
    ⟨50, ⟨3.501, 2.625, 3.5, 2.625, 0.5, "#000000"⟩⟩ (by simp) (by decide +kernel)
  exact ⟨_, h, h_crop, h_highlight⟩

end Clip

end ClipEdit
