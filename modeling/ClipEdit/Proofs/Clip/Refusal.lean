import ClipEdit.Proofs.Clip.Reachable
import ClipEdit.Proofs.Settings.Usable
import ClipEdit.Proofs.Timeline.History

/-!
# Refused edits

An edit says whether it was carried out or refused, and a user who is told that it was refused relies
on nothing having happened. `Outcome.Atomic` says that of one outcome: refused means unchanged.

Most edits check everything before they change anything, and are atomic whatever state they are made
in. Two are not of that kind. A lock on the proportions is stored before the crop that goes with it
is written, and taking a trim back drops the entry of the log before its span is looked for. The
first cannot be refused any more once the lock is stored; the second would be refused if a span were
missing, and it takes the soundness of the timeline to know that none is.

* `Timeline.Sound.atomic_apply` — every edit of a sound timeline is atomic;
* `atomic_apply` — so is every edit of a clip with such a timeline;
* `refused_unchanged` — hence every edit of every reachable clip, at binary64 numbers and under
  settings that were validated.
-/

namespace ClipEdit

open Scalar Gauge

/-! ### All or nothing -/

namespace Outcome

variable {σ τ : Type} {o : Outcome σ} {s : σ}

/-- **All or nothing**: an edit that is refused leaves the state that it was made in. -/
def Atomic (o : Outcome σ) (s : σ) : Prop := o.accepted = false → o.state = s

theorem Atomic.of_accept {s' : σ} (h : o = accept s') : o.Atomic s := by
  intro h_refused
  rw [h] at h_refused
  exact absurd h_refused (by simp)

theorem Atomic.of_refuse (h : o = refuse s) : o.Atomic s := by
  intro _
  rw [h, state_refuse]

theorem Atomic.map (h : o.Atomic s) (f : σ → τ) : (o.map f).Atomic (f s) :=
  fun h_refused => congrArg f (h h_refused)

end Outcome

open Outcome

/-! ### Tracks and the clipboard -/

namespace Track

variable {V : Type}

theorem atomic_insert (t : Track V) (frame : Frame) (value : V) :
    (t.insert frame value).Atomic t := by
  rcases t.insert_cases frame value with ⟨-, h⟩ | ⟨-, h⟩ | ⟨-, -, h⟩ | ⟨-, -, h⟩
  · exact .of_refuse h
  all_goals exact .of_accept h

theorem atomic_erase (t : Track V) (frame : Frame) : (t.erase frame).Atomic t := by
  rcases t.erase_cases frame with h | h
  · exact .of_refuse h
  · exact .of_accept h

end Track

variable {α : Type}

namespace Clipboard

variable {V : Type} [Clippable α V]

theorem atomic_copyFrom (b : Clipboard α) (t : Track V) (frame : Frame) :
    (b.copyFrom t frame).Atomic b := by
  rcases b.copyFrom_cases t frame with h | ⟨value, -, h⟩
  · exact .of_refuse h
  · exact .of_accept h

theorem atomic_pasteInto (b : Clipboard α) (t : Track V) (frame : Frame) :
    (b.pasteInto t frame).Atomic t := by
  rcases b.pasteInto_cases t frame with h | ⟨value, -, h⟩
  · exact .of_refuse h
  · rw [h]
    exact t.atomic_insert frame value

end Clipboard

variable [Scalar α]

/-! ### Timelines -/

namespace Timeline

variable {t : Timeline α}

/-- Taking a trim back is refused only where there is none: every entry of the log finds its
span. -/
theorem Sound.atomic_detrim [Gauge α] (h : t.Sound) (side : TrimSide) :
    (t.detrim side).Atomic t := by
  by_cases h_nil : t.trimmedAt side = []
  · exact .of_refuse (h.detrim_eq_refuse h_nil)
  · -- an entry of the log finds its span, so the entry is not dropped in vain
    obtain ⟨-, trims, h_eq, -⟩ := h.detrim_eq h_nil
    exact .of_accept h_eq

/-- **Every edit of a sound timeline is carried out or changes nothing.** -/
theorem Sound.atomic_apply [Gauge α] (h : t.Sound) (e : Edit α) : (t.apply e).Atomic t := by
  cases e with
  -- in each case refused or accepted; only a detrim has to know more, since it takes two steps
  | addBoundary time =>
    rcases t.addBoundary_cases time with h_eq | ⟨_, _, _, -, -, -, -, h_eq⟩
    · exact .of_refuse h_eq
    · exact .of_accept h_eq
  | removeBoundary time =>
    rcases t.removeBoundary_cases time with h_eq | ⟨_, _, _, _, -, -, -, -, h_eq⟩
    · exact .of_refuse h_eq
    · exact .of_accept h_eq
  | setSpeed index speed =>
    rcases t.setSpeed_cases index speed with h_eq | ⟨_, _, _, -, -, -, -, h_eq⟩
    · exact .of_refuse h_eq
    · exact .of_accept h_eq
  | trim index =>
    rcases t.trim_cases index with h_eq | ⟨_, _, _, -, -, -, -, h_eq⟩ | ⟨_, _, _, -, -, -, -, h_eq⟩
    · exact .of_refuse h_eq
    all_goals exact .of_accept h_eq
  | detrim side => exact h.atomic_detrim side

end Timeline

/-! ### Clips -/

namespace Clip

variable {c : Clip α}

omit [Scalar α] in
theorem atomic_withCrop {o : Outcome (Track (Crop α))} (h : o.Atomic c.crop) :
    (c.withCrop o).Atomic c :=
  h.map (fun crop => ({ c with crop } : Clip α))

omit [Scalar α] in
theorem atomic_withHighlight {o : Outcome (Track (Highlight α))} (h : o.Atomic c.highlight) :
    (c.withHighlight o).Atomic c :=
  h.map (fun highlight => ({ c with highlight } : Clip α))

omit [Scalar α] in
theorem atomic_copyCrop (c : Clip α) (frame : Frame) : (c.copyCrop frame).Atomic c :=
  (c.clipboard.atomic_copyFrom c.crop frame).map
    (fun clipboard => ({ c with clipboard } : Clip α))

omit [Scalar α] in
theorem atomic_copyHighlight (c : Clip α) (frame : Frame) : (c.copyHighlight frame).Atomic c :=
  (c.clipboard.atomic_copyFrom c.highlight frame).map
    (fun clipboard => ({ c with clipboard } : Clip α))

/-- A frame that was checked for the lock is no longer refused for the crop. -/
theorem atomic_setRatio (c : Clip α) (ratio : AspectRatio) (frame : Frame) :
    (c.setRatio ratio frame).Atomic c := by
  rw [setRatio]
  split
  · exact .of_refuse rfl
  · next h_not =>
    dsimp only
    split
    · exact .of_accept rfl
    · -- the lock is stored by now, but a frame that is not past the end is accepted
      intro h_refused
      rcases c.crop.insert_cases frame ((ratio.fitCrop c.metadata.frame).constrain c.metadata.frame)
        with ⟨h_past, -⟩ | ⟨-, h_eq⟩ | ⟨-, -, h_eq⟩ | ⟨-, -, h_eq⟩
      · exact absurd h_past h_not
      all_goals
        simp [setCrop, withCrop, h_eq] at h_refused

theorem atomic_setHighlightDuration (c : Clip α) (seconds : α) :
    (c.setHighlightDuration seconds).Atomic c := by
  rw [setHighlightDuration]
  split
  · exact .of_refuse rfl
  · exact .of_accept rfl

/-- The map is made anew only if the timeline has changed. -/
theorem atomic_editTimeline {edit : Timeline.Edit α}
    (h : (c.timeline.apply edit).Atomic c.timeline) : (c.editTimeline edit).Atomic c := by
  intro h_refused
  have h_refused' : (c.timeline.apply edit).accepted = false := h_refused
  rw [editTimeline]
  simp only [h_refused', h h_refused', Bool.false_eq_true, if_false]

/-- **Every edit of a clip with a sound timeline is carried out or changes nothing.** -/
theorem atomic_apply [Gauge α] (h : c.timeline.Sound) (e : Edit α) : (c.apply e).Atomic c := by
  cases e with
  | setCrop frame value => exact atomic_withCrop (c.crop.atomic_insert frame _)
  | deleteCrop frame => exact atomic_withCrop (c.crop.atomic_erase frame)
  | copyCrop frame => exact c.atomic_copyCrop frame
  | pasteCrop frame => exact atomic_withCrop (c.clipboard.atomic_pasteInto c.crop frame)
  | commitCrop edit => exact atomic_withCrop (c.crop.atomic_insert edit.frame _)
  | setHighlight frame value => exact atomic_withHighlight (c.highlight.atomic_insert frame _)
  | deleteHighlight frame => exact atomic_withHighlight (c.highlight.atomic_erase frame)
  | copyHighlight frame => exact c.atomic_copyHighlight frame
  | pasteHighlight frame =>
    exact atomic_withHighlight (c.clipboard.atomic_pasteInto c.highlight frame)
  | commitHighlight edit => exact atomic_withHighlight (c.highlight.atomic_insert edit.frame _)
  | setRatio ratio frame => exact c.atomic_setRatio ratio frame
  | setHighlightEnabled enabled => exact .of_accept rfl
  | setHighlightDuration seconds => exact c.atomic_setHighlightDuration seconds
  | timeline edit => exact atomic_editTimeline (h.atomic_apply edit)

end Clip

/-! ### Validated settings -/

namespace Settings

/-- Under validated settings boundaries have to keep some distance. -/
theorem zero_lt_boundaryEpsilon_validate (settings : Settings Float) :
    0 < settings.validate.boundaryEpsilon :=
  Gauge.lt_of_lt_of_le (by decide) settings.validate_usable.boundaryEpsilon.1

end Settings

namespace Clip

/-- **A refused edit changes nothing.** Whatever was done to a clip before, an edit of it that is
refused leaves every part of it as it was. -/
theorem refused_unchanged {settings : Settings Float} {metadata : Metadata Float} {fps : Nat}
    {c : Clip Float} (h : c.Reachable settings.validate metadata fps) (e : Edit Float)
    (h_refused : (c.apply e).accepted = false) : (c.apply e).state = c :=
  atomic_apply (h.timeline_sound settings.zero_lt_boundaryEpsilon_validate) e h_refused

/-- With the first part trimmed away, there is no trim to take back at the end. -/
theorem refused_unchanged_of_trimmed :
    ∃ c : Clip Float, c.Reachable Settings.default.validate ⟨1920.0, 1080.0, 10.0⟩ 30 ∧
      c.timeline.trims = [⟨.start, 0⟩] ∧
      (c.apply (.timeline (.detrim .stop))).accepted = false ∧
      (c.apply (.timeline (.detrim .stop))).state = c := by
  have h : (run (loaded (⟨1920.0, 1080.0, 10.0⟩ : Metadata Float) 30
      ⟨10.0, [⟨0, 10.0, 1.0, false⟩], [], 0.01, .keepRight⟩)
      [.timeline (.addBoundary 4.0), .timeline (.trim 0)]).Reachable
        Settings.default.validate ⟨1920.0, 1080.0, 10.0⟩ 30 :=
    ⟨_, _, load_of_valid (by decide +kernel) (by decide) (by decide +kernel), rfl⟩
  have h_trimmed : (run (loaded (⟨1920.0, 1080.0, 10.0⟩ : Metadata Float) 30
      ⟨10.0, [⟨0, 10.0, 1.0, false⟩], [], 0.01, .keepRight⟩)
      [.timeline (.addBoundary 4.0), .timeline (.trim 0)]).timeline.trims = [⟨.start, 0⟩] := by
    decide +kernel
  -- no trim was made at the end, so none can be taken back there
  refine ⟨_, h, h_trimmed, ?_, refused_unchanged h _ ?_⟩ <;> decide +kernel

end Clip

end ClipEdit
