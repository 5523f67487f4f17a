import ClipEdit.Clip.Basic
import ClipEdit.Proofs.Overlay.Constrain
import ClipEdit.Proofs.Timeline.Reachable
import ClipEdit.Proofs.Track.Edits

/-!
# Clips under edits

A clip is made by `load` and then changes by edits only. `Step` says once what an edit can do to it,
with everything that was checked on the way (`step_apply`), and `Reachable.induction` turns what a
step preserves into a fact about all clips that edits lead to:

* `Reachable.sound` — both tracks are sound and end at the last frame of the clip, and every overlay
  that is stored, in a track or on the clipboard, was brought into the frame (`Sound`);
* `Reachable.timeline_sound` — the timeline is one that commands lead to, so it is sound as well.

Overlays reach the tracks by five routes, and pasting is the only one of them on which they are not
brought into the frame. What is pasted was copied from a track, so `Sound` has to speak of the
clipboard, too.

All of this holds for every kind of scalars.
-/

namespace ClipEdit

open Scalar

variable {α : Type} [Scalar α]

/-! ### The clipboard -/

namespace Clipboard

variable {V : Type} [Clippable α V]

/-- The value that the clipboard holds, if it is one of this kind. -/
def held? (b : Clipboard α) : Option V := b.held.bind Clippable.ofClipping?

omit [Scalar α] in
theorem copyFrom_cases (b : Clipboard α) (t : Track V) (frame : Frame) :
    b.copyFrom t frame = .refuse b ∨
      ∃ value, t.get? frame = some value ∧
        b.copyFrom t frame = .accept ⟨some (Clippable.toClipping value)⟩ := by
  rw [copyFrom]
  split
  · next value h_get => exact Or.inr ⟨value, h_get, rfl⟩
  · exact Or.inl rfl

omit [Scalar α] in
theorem pasteInto_cases (b : Clipboard α) (t : Track V) (frame : Frame) :
    b.pasteInto t frame = .refuse t ∨
      ∃ value, b.held? = some value ∧ b.pasteInto t frame = t.insert frame value := by
  rw [pasteInto]
  split
  · next value h_held => exact Or.inr ⟨value, h_held, rfl⟩
  · exact Or.inl rfl

end Clipboard

namespace Clip

variable {c c' : Clip α} {settings : Settings α} {metadata : Metadata α} {fps : Nat}

/-! ### What an edit can do -/

/-- The values that an edit may write into a track of a clip: those with a property, and the one on
the clipboard. -/
def Writes {V : Type} [Clippable α V] (c : Clip α) (P : V → Prop) (edit : Track.Edit V) : Prop :=
  ∀ frame value, edit = .insert frame value → P value ∨ c.clipboard.held? = some value

/-- **What an edit can do to a clip**, whether it is carried out or refused. Every case changes one
thing; only a lock on the proportions may change together with the crop track. -/
inductive Step (c : Clip α) : Clip α → Prop
  | stay : Step c c
  | unlock (ratio : AspectRatio) : Step c { c with ratio }
  | crop (ratio : AspectRatio) (edit : Track.Edit (Crop α))
      (h_writes : c.Writes (Crop.Framed c.metadata.frame) edit) :
      Step c { c with ratio, crop := (c.crop.apply edit).state }
  | highlight (edit : Track.Edit (Highlight α))
      (h_writes : c.Writes (Highlight.Framed c.metadata.frame) edit) :
      Step c { c with highlight := (c.highlight.apply edit).state }
  | holdCrop {frame : Frame} {value : Crop α} (h_get : c.crop.get? frame = some value) :
      Step c { c with clipboard := ⟨some (.crop value)⟩ }
  | holdHighlight {frame : Frame} {value : Highlight α}
      (h_get : c.highlight.get? frame = some value) :
      Step c { c with clipboard := ⟨some (.highlight value)⟩ }
  | enable (enabled : Bool) : Step c { c with highlightEnabled := enabled }
  | last {seconds : α} (h_fin : isFinite seconds = true) (h_pos : ¬ seconds ≤ 0) :
      Step c { c with highlightDuration := atMost seconds c.metadata.duration }
  | timeline (edit : Timeline.Edit α) : Step c (c.editTimeline edit).state

namespace Step

theorem setCrop (c : Clip α) (ratio : AspectRatio) (frame : Frame) (value : Crop α) :
    Step c (({ c with ratio } : Clip α).setCrop frame value).state := by
  refine .crop ratio (.insert frame (value.constrain c.metadata.frame)) ?_
  rintro _ _ ⟨⟩
  exact Or.inl ⟨value, rfl⟩

theorem setHighlight (c : Clip α) (frame : Frame) (value : Highlight α) :
    Step c (c.setHighlight frame value).state := by
  refine .highlight (.insert frame (value.constrain c.metadata.frame)) ?_
  rintro _ _ ⟨⟩
  exact Or.inl ⟨value, rfl⟩

theorem pasteCrop (c : Clip α) (frame : Frame) : Step c (c.pasteCrop frame).state := by
  rcases c.clipboard.pasteInto_cases c.crop frame with h_eq | ⟨value, h_held, h_eq⟩
  · rw [Clip.pasteCrop, h_eq]
    exact .stay
  · rw [Clip.pasteCrop, h_eq]
    refine .crop c.ratio (.insert frame value) ?_
    rintro _ _ ⟨⟩
    exact Or.inr h_held

theorem pasteHighlight (c : Clip α) (frame : Frame) : Step c (c.pasteHighlight frame).state := by
  rcases c.clipboard.pasteInto_cases c.highlight frame with h_eq | ⟨value, h_held, h_eq⟩
  · rw [Clip.pasteHighlight, h_eq]
    exact .stay
  · rw [Clip.pasteHighlight, h_eq]
    refine .highlight (.insert frame value) ?_
    rintro _ _ ⟨⟩
    exact Or.inr h_held

theorem copyCrop (c : Clip α) (frame : Frame) : Step c (c.copyCrop frame).state := by
  rcases c.clipboard.copyFrom_cases c.crop frame with h_eq | ⟨value, h_get, h_eq⟩
  · rw [Clip.copyCrop, h_eq]
    exact .stay
  · rw [Clip.copyCrop, h_eq]
    exact .holdCrop h_get

theorem copyHighlight (c : Clip α) (frame : Frame) : Step c (c.copyHighlight frame).state := by
  rcases c.clipboard.copyFrom_cases c.highlight frame with h_eq | ⟨value, h_get, h_eq⟩
  · rw [Clip.copyHighlight, h_eq]
    exact .stay
  · rw [Clip.copyHighlight, h_eq]
    exact .holdHighlight h_get

theorem setRatio (c : Clip α) (ratio : AspectRatio) (frame : Frame) :
    Step c (c.setRatio ratio frame).state := by
  rw [Clip.setRatio]
  split
  · exact .stay
  · dsimp only
    split
    · exact .unlock ratio
    · exact setCrop c ratio frame _

theorem setHighlightDuration (c : Clip α) (seconds : α) :
    Step c (c.setHighlightDuration seconds).state := by
  rw [Clip.setHighlightDuration]
  split
  · exact .stay
  · next h_not =>
    simp only [Bool.or_eq_true, Bool.not_eq_true', decide_eq_true_eq, not_or,
      Bool.not_eq_false] at h_not
    exact .last h_not.1 h_not.2

end Step

/-- **Every edit is a step.** -/
theorem step_apply (c : Clip α) (e : Edit α) : Step c (c.apply e).state := by
  cases e with
  | setCrop frame value => exact .setCrop c c.ratio frame value
  | deleteCrop frame => exact .crop c.ratio (.erase frame) (by rintro _ _ ⟨⟩)
  | copyCrop frame => exact .copyCrop c frame
  | pasteCrop frame => exact .pasteCrop c frame
  | commitCrop edit => exact .setCrop c c.ratio edit.frame edit.value
  | setHighlight frame value => exact .setHighlight c frame value
  | deleteHighlight frame => exact .highlight (.erase frame) (by rintro _ _ ⟨⟩)
  | copyHighlight frame => exact .copyHighlight c frame
  | pasteHighlight frame => exact .pasteHighlight c frame
  | commitHighlight edit => exact .setHighlight c edit.frame edit.value
  | setRatio ratio frame => exact .setRatio c ratio frame
  | setHighlightEnabled enabled => exact .enable enabled
  | setHighlightDuration seconds => exact .setHighlightDuration c seconds
  | timeline edit => exact .timeline edit

/-! ### Reachable clips -/

/-- A clip as it is loaded. -/
def loaded (metadata : Metadata α) (fps : Nat) (timeline : Timeline α) : Clip α where
  metadata
  fps
  ratio := .free
  crop := .create ((Crop.full metadata.frame).constrain metadata.frame)
    (max (Frame.ofTime metadata.duration fps) 1)
  highlight := .create ((Highlight.centeredIn metadata.frame).constrain metadata.frame)
    (max (Frame.ofTime metadata.duration fps) 1)
  highlightEnabled := false
  highlightDuration := metadata.duration
  timeline
  map := .ofTimeline timeline
  clipboard := .empty

/-- A description that passes all checks is loaded. -/
theorem load_of_valid {timeline : Timeline α} (h_valid : metadata.validate = .ok ())
    (h_fps : fps ≠ 0)
    (h_timeline : Timeline.ofSettings settings metadata.duration = .ok timeline) :
    load settings metadata fps = .ok (loaded metadata fps timeline) := by
  simp only [load, h_valid, h_fps, h_timeline, bind, Except.bind, if_false]
  rfl

/-- What is loaded was checked. -/
theorem load_eq_ok (h : load settings metadata fps = .ok c) :
    metadata.validate = .ok () ∧ fps ≠ 0 ∧
      ∃ timeline, Timeline.ofSettings settings metadata.duration = .ok timeline ∧
        c = loaded metadata fps timeline := by
  cases h_valid : metadata.validate with
  | error fault => simp [load, h_valid, bind, Except.bind] at h
  | ok =>
    by_cases h_fps : fps = 0
    · simp [load, h_valid, h_fps, bind, Except.bind, throw, throwThe, MonadExceptOf.throw] at h
    · cases h_timeline : Timeline.ofSettings settings metadata.duration with
      | error fault => simp [load, h_valid, h_fps, h_timeline, bind, Except.bind] at h
      | ok timeline =>
        rw [load_of_valid h_valid h_fps h_timeline] at h
        exact ⟨rfl, h_fps, timeline, rfl, (Except.ok.inj h).symm⟩

/-- **A reachable clip**: one that some edits lead to from the clip as it is loaded. -/
def Reachable (settings : Settings α) (metadata : Metadata α) (fps : Nat) (c : Clip α) : Prop :=
  ∃ c₀ edits, load settings metadata fps = .ok c₀ ∧ c₀.run edits = c

/-- **Induction over edits**: what holds of the loaded clip and is preserved by every step holds of
all reachable clips. -/
theorem Reachable.induction {P : Clip α → Prop} (h : c.Reachable settings metadata fps)
    (h_load : ∀ timeline, Timeline.ofSettings settings metadata.duration = .ok timeline →
      P (loaded metadata fps timeline))
    (h_step : ∀ {c c'}, P c → Step c c' → P c') : P c := by
  obtain ⟨c₀, edits, h_ok, rfl⟩ := h
  obtain ⟨-, -, timeline, h_timeline, rfl⟩ := load_eq_ok h_ok
  -- the induction is on the edits, so it has to start from every clip and not from the loaded one
  have h_run : ∀ c, P c → P (run c edits) := by
    induction edits with
    | nil => exact fun _ hc => hc
    | cons e rest ih => exact fun c hc => ih _ (h_step hc (c.step_apply e))
  exact h_run _ (h_load timeline h_timeline)

/-! ### The invariant -/

/-- **A sound clip**: its description is the one it was loaded with, both tracks are sound and end
at its last frame, and every overlay that is stored was brought into the frame. -/
structure Sound (metadata : Metadata α) (fps : Nat) (c : Clip α) : Prop where
  metadata_eq : c.metadata = metadata
  crop : c.crop.Sound
  highlight : c.highlight.Sound
  crop_endFrame : c.crop.endFrame = max (Frame.ofTime metadata.duration fps) 1
  highlight_endFrame : c.highlight.endFrame = max (Frame.ofTime metadata.duration fps) 1
  crop_framed : c.crop.Each (Crop.Framed metadata.frame)
  highlight_framed : c.highlight.Each (Highlight.Framed metadata.frame)
  copied_crop : ∀ value, c.clipboard.held? = some value → Crop.Framed metadata.frame value
  copied_highlight :
    ∀ value, c.clipboard.held? = some value → Highlight.Framed metadata.frame value

theorem sound_loaded (metadata : Metadata α) (fps : Nat) (timeline : Timeline α) :
    (loaded metadata fps timeline).Sound metadata fps where
  metadata_eq := rfl
  crop := .create _ _
  highlight := .create _ _
  crop_endFrame := by
    change max (max _ 1) 1 = _
    exact max_eq_left (le_max_right _ _)
  highlight_endFrame := by
    change max (max _ 1) 1 = _
    exact max_eq_left (le_max_right _ _)
  crop_framed := .create ⟨_, rfl⟩ _
  highlight_framed := .create ⟨_, rfl⟩ _
  copied_crop value h_held := by simp [loaded, Clipboard.empty, Clipboard.held?] at h_held
  copied_highlight value h_held := by simp [loaded, Clipboard.empty, Clipboard.held?] at h_held

omit [Scalar α] in
/-- A track that is edited keeps to the values that it may store. -/
theorem Writes.each {V : Type} [Clippable α V] {P : V → Prop} {t : Track V} {edit : Track.Edit V}
    (h_writes : c.Writes P edit) (h_held : ∀ value, c.clipboard.held? = some value → P value)
    (h : t.Each P) : (t.apply edit).state.Each P := by
  cases edit with
  | insert frame value => exact h.insert ((h_writes frame value rfl).elim id (h_held value)) frame
  | erase frame => exact h.erase frame

/-- **A step keeps a clip sound.** -/
theorem Sound.step (h : c.Sound metadata fps) (h_step : Step c c') : c'.Sound metadata fps := by
  cases h_step with
  | crop ratio edit h_writes =>
    rw [h.metadata_eq] at h_writes
    exact { h with
      crop := h.crop.apply edit
      crop_endFrame := (Track.endFrame_apply _ edit).trans h.crop_endFrame
      crop_framed := h_writes.each h.copied_crop h.crop_framed }
  | highlight edit h_writes =>
    rw [h.metadata_eq] at h_writes
    exact { h with
      highlight := h.highlight.apply edit
      highlight_endFrame := (Track.endFrame_apply _ edit).trans h.highlight_endFrame
      highlight_framed := h_writes.each h.copied_highlight h.highlight_framed }
  | holdCrop h_get =>
    -- a copy is framed because what it was copied from is
    exact { h with
      copied_crop := by
        rintro value ⟨⟩
        exact h.crop_framed.get? h_get
      copied_highlight := by rintro value ⟨⟩ }
  | holdHighlight h_get =>
    exact { h with
      copied_crop := by rintro value ⟨⟩
      copied_highlight := by
        rintro value ⟨⟩
        exact h.highlight_framed.get? h_get }
  -- nothing else touches a track or the clipboard
  | stay => exact h
  | unlock => exact { h with }
  | enable => exact { h with }
  | last => exact { h with }
  | timeline => exact { h with }

/-- **Reachable clips are sound.** -/
theorem Reachable.sound (h : c.Reachable settings metadata fps) : c.Sound metadata fps :=
  h.induction (fun timeline _ => sound_loaded metadata fps timeline) Sound.step

/-- The two tracks of a sound clip end together. -/
theorem Sound.highlight_endFrame_eq (h : c.Sound metadata fps) :
    c.highlight.endFrame = c.endFrame :=
  h.highlight_endFrame.trans h.crop_endFrame.symm

/-! ### The timeline -/

/-- The timeline of a clip changes by commands of its own. -/
theorem Step.exists_run (h_step : Step c c') :
    ∃ commands, c'.timeline = c.timeline.run commands := by
  cases h_step with
  | timeline edit => exact ⟨[.edit edit], rfl⟩
  | _ => exact ⟨[], rfl⟩

/-- The timeline of a reachable clip is one that commands lead to from a new timeline. -/
theorem Reachable.exists_run (h : c.Reachable settings metadata fps) :
    ∃ t₀ commands, Timeline.ofSettings settings metadata.duration = .ok t₀ ∧
      c.timeline = t₀.run commands := by
  refine h.induction (P := fun c => ∃ t₀ commands,
    Timeline.ofSettings settings metadata.duration = .ok t₀ ∧ c.timeline = t₀.run commands) ?_ ?_
  · exact fun timeline h_ok => ⟨timeline, [], h_ok, rfl⟩
  · rintro c c' ⟨t₀, commands, h_ok, h_eq⟩ h_step
    obtain ⟨more, h_more⟩ := h_step.exists_run
    refine ⟨t₀, commands ++ more, h_ok, ?_⟩
    rw [h_more, h_eq, Timeline.run, Timeline.run, Timeline.run, List.foldl_append]

/-- **The timeline of a reachable clip is sound**, if boundaries have to keep any distance. -/
theorem Reachable.timeline_sound [Gauge α] (h : c.Reachable settings metadata fps)
    (h_epsilon : 0 < settings.boundaryEpsilon) : c.timeline.Sound := by
  obtain ⟨t₀, commands, h_ok, h_eq⟩ := h.exists_run
  rw [h_eq]
  exact (Timeline.Sound.create h_epsilon h_ok).run commands

end Clip

end ClipEdit
