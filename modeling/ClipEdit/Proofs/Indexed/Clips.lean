import ClipEdit.Proofs.Clip.Reachable
import ClipEdit.Proofs.Indexed.Timelines
import ClipEdit.Proofs.Indexed.Tracks

/-!
# No misstep in a session

`ClipRow` is a clip that keeps its tracks and its timeline as rows and addresses them by position. A
session loads a clip, edits it and asks it questions, in any order and with any arguments: a
`Request` is an edit or a question, and the answer to it has the type that belongs to it.

Requests keep the clip as it has to be for the next one: its tracks are sound, and its timeline has
spans (`serve_row`). Hence no step of any session goes wrong, whatever the settings, the clip and
the requests are, and every answer is the one that the library gives (`session_row`). This is so for
all kinds of scalars; the program that runs has numbers that are none and infinite ones among
them.
-/

namespace ClipEdit

open Scalar Checked

variable {α : Type}

/-- A clip that keeps its tracks and its timeline as rows. -/
structure ClipRow (α : Type) where
  metadata : Metadata α
  fps : Nat
  ratio : AspectRatio
  crop : KeyRow (Crop α)
  highlight : KeyRow (Highlight α)
  highlightEnabled : Bool
  highlightDuration : α
  timeline : SegmentRow α
  map : TimeMap α
  clipboard : Clipboard α
deriving Repr, DecidableEq

/-- The rows of a clip. -/
def Clip.row (c : Clip α) : ClipRow α where
  metadata := c.metadata
  fps := c.fps
  ratio := c.ratio
  crop := c.crop.row
  highlight := c.highlight.row
  highlightEnabled := c.highlightEnabled
  highlightDuration := c.highlightDuration
  timeline := c.timeline.row
  map := c.map
  clipboard := c.clipboard

namespace Clip

@[simp] theorem crop_row (c : Clip α) : c.row.crop = c.crop.row := rfl

@[simp] theorem highlight_row (c : Clip α) : c.row.highlight = c.highlight.row := rfl

@[simp] theorem timeline_row (c : Clip α) : c.row.timeline = c.timeline.row := rfl

end Clip

/-! ### The clipboard -/

namespace Clipboard

variable {V : Type} [Clippable α V]

/-- Copy what the keyframe at a frame of a row shows. -/
def copyFromRow (b : Clipboard α) (r : KeyRow V) (frame : Frame) :
    Checked (Outcome (Clipboard α)) := do
  match ← r.get? frame with
  | some value => return .accept ⟨some (Clippable.toClipping value)⟩
  | none => return .refuse b

/-- Write the value that is held into a row. -/
def pasteIntoRow (b : Clipboard α) (r : KeyRow V) (frame : Frame) : Checked (Outcome (KeyRow V)) :=
  match (b.held? : Option V) with
  | some value => r.insert frame value
  | none => .ok (.refuse r)

theorem copyFromRow_row {t : Track V} (h : t.Sound) (b : Clipboard α) (frame : Frame) :
    b.copyFromRow t.row frame = .ok (b.copyFrom t frame) := by
  unfold copyFromRow copyFrom Track.copy?
  rw [h.get?_row, ok_bind]
  cases t.get? frame with
  | none => rfl
  | some value => rfl

theorem pasteIntoRow_row {t : Track V} (h : t.Sound) (b : Clipboard α) (frame : Frame) :
    b.pasteIntoRow t.row frame = .ok ((b.pasteInto t frame).map Track.row) := by
  unfold pasteIntoRow pasteInto held?
  cases (b.held.bind Clippable.ofClipping? : Option V) with
  | none => rfl
  | some value => exact h.insert_row frame value

end Clipboard

/-! ### Edits -/

namespace ClipRow

/-- The outcome of an edit of the crop track. -/
def withCrop (r : ClipRow α) (outcome : Checked (Outcome (KeyRow (Crop α)))) :
    Checked (Outcome (ClipRow α)) := do
  return (← outcome).map fun crop => { r with crop }

/-- The outcome of an edit of the highlight track. -/
def withHighlight (r : ClipRow α) (outcome : Checked (Outcome (KeyRow (Highlight α)))) :
    Checked (Outcome (ClipRow α)) := do
  return (← outcome).map fun highlight => { r with highlight }

/-- The outcome of a copy. -/
def withClipboard (r : ClipRow α) (outcome : Checked (Outcome (Clipboard α))) :
    Checked (Outcome (ClipRow α)) := do
  return (← outcome).map fun clipboard => { r with clipboard }

variable [Scalar α]

/-- Bring a crop into the frame and write it at a frame. -/
def setCrop (r : ClipRow α) (frame : Frame) (value : Crop α) : Checked (Outcome (ClipRow α)) :=
  r.withCrop (r.crop.insert frame (value.constrain r.metadata.frame))

/-- Bring a highlight into the frame and write it at a frame. -/
def setHighlight (r : ClipRow α) (frame : Frame) (value : Highlight α) :
    Checked (Outcome (ClipRow α)) :=
  r.withHighlight (r.highlight.insert frame (value.constrain r.metadata.frame))

/-- Change the lock on the proportions of the crop. -/
def setRatio (r : ClipRow α) (ratio : AspectRatio) (frame : Frame) :
    Checked (Outcome (ClipRow α)) := do
  if (← r.crop.endFrame) < frame then return .refuse r
  else
    let r := { r with ratio }
    if ratio.isFree then return .accept r
    else r.setCrop frame (ratio.fitCrop r.metadata.frame)

/-- Set for how many seconds the highlight is shown. -/
def setHighlightDuration (r : ClipRow α) (seconds : α) : Outcome (ClipRow α) :=
  if !isFinite seconds || decide (seconds ≤ 0) then .refuse r
  else .accept { r with highlightDuration := atMost seconds r.metadata.duration }

/-- Edit the timeline, and make the map anew if that was accepted. -/
def editTimeline (r : ClipRow α) (edit : Timeline.Edit α) : Checked (Outcome (ClipRow α)) := do
  let o ← r.timeline.apply edit
  return ⟨o.accepted,
    { r with
      timeline := o.state
      map := if o.accepted then .ofTimeline o.state.timeline else r.map }⟩

/-- The outcome of an edit. -/
def apply (r : ClipRow α) : Clip.Edit α → Checked (Outcome (ClipRow α))
  | .setCrop frame value => r.setCrop frame value
  | .deleteCrop frame => r.withCrop (r.crop.erase frame)
  | .copyCrop frame => r.withClipboard (r.clipboard.copyFromRow r.crop frame)
  | .pasteCrop frame => r.withCrop (r.clipboard.pasteIntoRow r.crop frame)
  | .commitCrop edit => r.setCrop edit.frame edit.value
  | .setHighlight frame value => r.setHighlight frame value
  | .deleteHighlight frame => r.withHighlight (r.highlight.erase frame)
  | .copyHighlight frame => r.withClipboard (r.clipboard.copyFromRow r.highlight frame)
  | .pasteHighlight frame => r.withHighlight (r.clipboard.pasteIntoRow r.highlight frame)
  | .commitHighlight edit => r.setHighlight edit.frame edit.value
  | .setRatio ratio frame => r.setRatio ratio frame
  | .setHighlightEnabled enabled => .ok (.accept { r with highlightEnabled := enabled })
  | .setHighlightDuration seconds => .ok (r.setHighlightDuration seconds)
  | .timeline edit => r.editTimeline edit

end ClipRow

namespace Clip

variable {c : Clip α} {metadata : Metadata α} {fps : Nat}

theorem withCrop_row {outcome : Outcome (Track (Crop α))}
    {checked : Checked (Outcome (KeyRow (Crop α)))} (h : checked = .ok (outcome.map Track.row)) :
    c.row.withCrop checked = .ok ((c.withCrop outcome).map row) := by
  rw [h]
  rfl

theorem withHighlight_row {outcome : Outcome (Track (Highlight α))}
    {checked : Checked (Outcome (KeyRow (Highlight α)))}
    (h : checked = .ok (outcome.map Track.row)) :
    c.row.withHighlight checked = .ok ((c.withHighlight outcome).map row) := by
  rw [h]
  rfl

variable [Scalar α]

theorem Sound.setRatio_row (h : c.Sound metadata fps) (ratio : AspectRatio) (frame : Frame) :
    c.row.setRatio ratio frame = .ok ((c.setRatio ratio frame).map row) := by
  unfold ClipRow.setRatio setRatio
  rw [crop_row, Track.endFrame_row, ok_bind, endFrame]
  split
  · rfl
  · dsimp only
    split
    · rfl
    · exact withCrop_row (c := { c with ratio }) (h.crop.insert_row frame _)

theorem editTimeline_row (h_ne : c.timeline.spans ≠ []) (edit : Timeline.Edit α) :
    c.row.editTimeline edit = .ok ((c.editTimeline edit).map row) := by
  unfold ClipRow.editTimeline
  rw [timeline_row, Timeline.apply_row h_ne, ok_bind, Outcome.map]
  dsimp only
  rw [Timeline.timeline_row]
  rfl

/-- **Every edit** is carried out on the rows without a misstep, and comes to what the clip says. -/
theorem Sound.apply_row (h : c.Sound metadata fps) (h_ne : c.timeline.spans ≠ []) (e : Edit α) :
    c.row.apply e = .ok ((c.apply e).map row) := by
  cases e with
  -- each part of the clip has its own lemma, and what remains is that the other parts stay
  | setCrop frame value => exact withCrop_row (h.crop.insert_row frame _)
  | deleteCrop frame => exact withCrop_row (h.crop.erase_row frame)
  | copyCrop frame =>
    show c.row.withClipboard (c.clipboard.copyFromRow c.crop.row frame) = _
    rw [Clipboard.copyFromRow_row h.crop]
    rfl
  | pasteCrop frame => exact withCrop_row (Clipboard.pasteIntoRow_row h.crop c.clipboard frame)
  | commitCrop edit => exact withCrop_row (h.crop.insert_row edit.frame _)
  | setHighlight frame value => exact withHighlight_row (h.highlight.insert_row frame _)
  | deleteHighlight frame => exact withHighlight_row (h.highlight.erase_row frame)
  | copyHighlight frame =>
    show c.row.withClipboard (c.clipboard.copyFromRow c.highlight.row frame) = _
    rw [Clipboard.copyFromRow_row h.highlight]
    rfl
  | pasteHighlight frame =>
    exact withHighlight_row (Clipboard.pasteIntoRow_row h.highlight c.clipboard frame)
  | commitHighlight edit => exact withHighlight_row (h.highlight.insert_row edit.frame _)
  | setRatio ratio frame => exact h.setRatio_row ratio frame
  | setHighlightEnabled enabled => rfl
  | setHighlightDuration seconds =>
    show Except.ok (c.row.setHighlightDuration seconds) = _
    -- nothing of this one is addressed by position
    unfold ClipRow.setHighlightDuration
    rw [apply, Clip.setHighlightDuration]
    split
    · rfl
    · rfl
  | timeline edit => exact editTimeline_row h_ne edit

/-- A step leaves a timeline with spans. -/
theorem Step.spans_ne_nil {c' : Clip α} (h_step : Step c c') (h_ne : c.timeline.spans ≠ []) :
    c'.timeline.spans ≠ [] := by
  cases h_step with
  | timeline edit => exact Timeline.spans_ne_nil_apply h_ne edit
  | _ => exact h_ne

/-! ### Questions -/

/-- What can be asked of a clip. -/
inductive Query (α : Type) where
  | crop (question : Track.Query α)
  | highlight (question : Track.Query α)
  | timeline (question : Timeline.Query α)
  | metadata
  | fps
  | ratio
  | highlightEnabled
  | highlightDuration
  | map
  | clipboard
  | editContext
  | endFrame
  | cropAt (frame : Frame)
  | highlightAt (frame : Frame)
  | visualDuration
  | toVisual (time : α)
  | toSource (time : α)
  | frameToVisual (frame : Frame)
  | visualToFrame (time : α)
  | frameTime (frame : Frame)
  | payload

/-- The type of the answer to a question. -/
def Query.Answer : Query α → Type
  | .crop question => question.Answer (Crop α)
  | .highlight question => question.Answer (Highlight α)
  | .timeline question => question.Answer
  | .metadata => Metadata α
  | .fps => Nat
  | .ratio => AspectRatio
  | .highlightEnabled => Bool
  | .highlightDuration => α
  | .map => TimeMap α
  | .clipboard => Clipboard α
  | .editContext => EditContext α
  | .endFrame => Frame
  | .cropAt _ => Crop α
  | .highlightAt _ => Highlight α
  | .visualDuration => α
  | .toVisual _ => α
  | .toSource _ => α
  | .frameToVisual _ => α
  | .visualToFrame _ => Frame
  | .frameTime _ => α
  | .payload => Export α

/-- The answer of a clip. -/
def ask (c : Clip α) : (q : Query α) → q.Answer
  | .crop question => c.crop.ask question
  | .highlight question => c.highlight.ask question
  | .timeline question => c.timeline.ask question
  | .metadata => c.metadata
  | .fps => c.fps
  | .ratio => c.ratio
  | .highlightEnabled => c.highlightEnabled
  | .highlightDuration => c.highlightDuration
  | .map => c.map
  | .clipboard => c.clipboard
  | .editContext => c.editContext
  | .endFrame => c.endFrame
  | .cropAt frame => c.cropAt frame
  | .highlightAt frame => c.highlightAt frame
  | .visualDuration => c.visualDuration
  | .toVisual time => c.toVisual time
  | .toSource time => c.toSource time
  | .frameToVisual frame => c.frameToVisual frame
  | .visualToFrame time => c.visualToFrame time
  | .frameTime frame => c.frameTime frame
  | .payload => c.payload

end Clip

namespace ClipRow

variable [Scalar α]

/-- The frame that is shown at a visual time; the last one at most. -/
def visualToFrame (r : ClipRow α) (time : α) : Checked Frame := do
  return min (r.map.visualToFrame time r.fps) (← r.crop.endFrame)

/-- The payload for the renderer. -/
def payload (r : ClipRow α) : Checked (Export α) := do
  let crop ← r.crop.shown
  let highlight ← r.highlight.shown
  let trimRange ← r.timeline.trimRange
  return {
    crop := crop.map fun k => ⟨k.frame, k.value.rounded⟩
    highlight :=
      { isEnabled := r.highlightEnabled
        duration := roundMilli r.highlightDuration
        keyframes := highlight.map fun k => ⟨k.frame, k.value.rounded⟩ }
    timeline :=
      { spans := r.timeline.segments.map fun s => Export.ofSpan s.toSpan
        trimRange := ⟨roundMilli trimRange.start, roundMilli trimRange.stop⟩ } }

/-- The answer of the rows. -/
def ask (r : ClipRow α) : (q : Clip.Query α) → Checked q.Answer
  | .crop question => r.crop.ask question
  | .highlight question => r.highlight.ask question
  | .timeline question => r.timeline.ask question
  | .metadata => .ok r.metadata
  | .fps => .ok r.fps
  | .ratio => .ok r.ratio
  | .highlightEnabled => .ok r.highlightEnabled
  | .highlightDuration => .ok r.highlightDuration
  | .map => .ok r.map
  | .clipboard => .ok r.clipboard
  | .editContext => .ok ⟨r.metadata.frame, r.ratio⟩
  | .endFrame => r.crop.endFrame
  | .cropAt frame => r.crop.sample frame
  | .highlightAt frame => r.highlight.sample frame
  | .visualDuration => .ok r.map.total
  | .toVisual time => .ok (r.map.toVisual time)
  | .toSource time => .ok (r.map.toSource time)
  | .frameToVisual frame => .ok (r.map.frameToVisual frame r.fps)
  | .visualToFrame time => r.visualToFrame time
  | .frameTime frame => .ok (frame.toTime r.fps : α)
  | .payload => r.payload

end ClipRow

namespace Clip

variable [Scalar α] {c : Clip α} {settings : Settings α} {metadata : Metadata α} {fps : Nat}

theorem payload_row (c : Clip α) : c.row.payload = .ok c.payload := by
  have h_spans : (c.timeline.segments.map fun s => Export.ofSpan s.toSpan) =
      c.timeline.spans.map Export.ofSpan := by
    conv_rhs => rw [← Timeline.map_toSpan_segments c.timeline, List.map_map]
    rfl
  unfold ClipRow.payload
  rw [crop_row, Track.shown_row, ok_bind, highlight_row, Track.shown_row, ok_bind, timeline_row,
    Timeline.trimRange_row, ok_bind, Timeline.segments_row, h_spans]
  rfl

/-- **Every question** is answered by the rows without a misstep, as the clip answers it. -/
theorem Sound.ask_row (h : c.Sound metadata fps) (h_ne : c.timeline.spans ≠ []) (q : Query α) :
    c.row.ask q = .ok (c.ask q) := by
  cases q with
  | crop question => exact h.crop.ask_row question
  | highlight question => exact h.highlight.ask_row question
  | timeline question => exact Timeline.ask_row h_ne question
  | endFrame => exact c.crop.endFrame_row
  | cropAt frame => exact h.crop.sample_row frame
  | highlightAt frame => exact h.highlight.sample_row frame
  | visualToFrame time =>
    show c.row.visualToFrame time = _
    unfold ClipRow.visualToFrame
    rw [crop_row, Track.endFrame_row]
    rfl
  | payload => exact c.payload_row
  -- the others read the clip without going through a row
  | _ => rfl

/-! ### Sessions -/

/-- What can be requested of a clip: an edit, or the answer to a question. -/
inductive Request (α : Type) where
  | edit (edit : Edit α)
  | ask (question : Query α)

/-- The type of the answer to a request; an edit says whether it was carried out. -/
def Request.Answer : Request α → Type
  | .edit _ => Bool
  | .ask question => question.Answer

/-- The answers of a session, each with the request it belongs to. -/
abbrev Answers (α : Type) : Type := List (Σ request : Request α, request.Answer)

/-- The answer to a request, and the clip after it. -/
def serve (c : Clip α) : (request : Request α) → request.Answer × Clip α
  | .edit e => ((c.apply e).accepted, (c.apply e).state)
  | .ask question => (c.ask question, c)

/-- The answers to a sequence of requests, and the clip after them. -/
def serveAll (c : Clip α) : List (Request α) → Answers α × Clip α
  | [] => ([], c)
  | request :: rest =>
      let (answer, c) := c.serve request
      let (answers, c) := c.serveAll rest
      (⟨request, answer⟩ :: answers, c)

/-- A session: load a clip and serve requests. -/
def session (settings : Settings α) (metadata : Metadata α) (fps : Nat)
    (requests : List (Request α)) : Except (ClipFault α) (Answers α × Clip α) := do
  return (← load settings metadata fps).serveAll requests

end Clip

namespace ClipRow

variable [Scalar α]

/-- A clip as it is loaded. -/
def loaded (metadata : Metadata α) (fps : Nat) (timeline : SegmentRow α) : ClipRow α where
  metadata
  fps
  ratio := .free
  crop := .create ((Crop.full metadata.frame).constrain metadata.frame)
    (max (Frame.ofTime metadata.duration fps) 1)
  highlight := .create ((Highlight.centeredIn metadata.frame).constrain metadata.frame)
    (max (Frame.ofTime metadata.duration fps) 1)
  highlightEnabled := false
  highlightDuration := metadata.duration
  timeline
  map := .ofTimeline timeline.timeline
  clipboard := .empty

/-- Load a clip. -/
def load (settings : Settings α) (metadata : Metadata α) (fps : Nat) :
    Checked (Except (ClipFault α) (ClipRow α)) := do
  match metadata.validate with
  | .error fault => return .error fault
  | .ok () =>
      if fps = 0 then return .error .noFrames
      else
        let timeline ← SegmentRow.create metadata.duration settings.boundaryEpsilon
          settings.mergePolicy
        return timeline.map (loaded metadata fps)

/-- The answer to a request, and the rows after it. -/
def serve (r : ClipRow α) : (request : Clip.Request α) → Checked (request.Answer × ClipRow α)
  | .edit e => do
      let o ← r.apply e
      return (o.accepted, o.state)
  | .ask question => do return (← r.ask question, r)

/-- The answers to a sequence of requests, and the rows after them. -/
def serveAll (r : ClipRow α) : List (Clip.Request α) → Checked (Clip.Answers α × ClipRow α)
  | [] => .ok ([], r)
  | request :: rest => do
      let (answer, r) ← r.serve request
      let (answers, r) ← r.serveAll rest
      return (⟨request, answer⟩ :: answers, r)

/-- A session: load a clip and serve requests. -/
def session (settings : Settings α) (metadata : Metadata α) (fps : Nat)
    (requests : List (Clip.Request α)) :
    Checked (Except (ClipFault α) (Clip.Answers α × ClipRow α)) := do
  match ← load settings metadata fps with
  | .error fault => return .error fault
  | .ok r => return .ok (← r.serveAll requests)

end ClipRow

namespace Clip

variable [Scalar α] {c : Clip α} {settings : Settings α} {metadata : Metadata α} {fps : Nat}

/-- The rows of a clip as it is loaded. -/
theorem loaded_row (metadata : Metadata α) (fps : Nat) (timeline : Timeline α) :
    ClipRow.loaded metadata fps timeline.row = (loaded metadata fps timeline).row := by
  unfold ClipRow.loaded
  rw [Timeline.timeline_row]
  rfl

/-- Loading a clip comes to the same with rows. -/
theorem load_row (settings : Settings α) (metadata : Metadata α) (fps : Nat) :
    ClipRow.load settings metadata fps = .ok ((load settings metadata fps).map row) := by
  unfold ClipRow.load
  cases h_valid : metadata.validate with
  | error fault => simp [load, h_valid, bind, Except.bind, Except.map]
  | ok =>
    dsimp only
    split
    · -- the measures are right, but there are no frames
      next h_fps =>
      simp [load, h_valid, h_fps, bind, Except.bind, Except.map, throw, throwThe,
        MonadExceptOf.throw]
    · next h_fps =>
      -- what is left is whether the timeline can be made
      rw [Timeline.create_row, ok_bind]
      cases h_timeline : Timeline.ofSettings settings metadata.duration with
      | error fault =>
        rw [Timeline.ofSettings] at h_timeline
        simp [load, h_valid, h_fps, h_timeline, Timeline.ofSettings, bind, Except.bind, Except.map]
      | ok timeline =>
        rw [load_of_valid h_valid h_fps h_timeline]
        rw [Timeline.ofSettings] at h_timeline
        rw [h_timeline]
        exact congrArg (fun r => Except.ok (Except.ok r)) (loaded_row metadata fps timeline)

/-- **One request**: the rows answer it without a misstep, and the clip is ready for the next. -/
theorem Sound.serve_row (h : c.Sound metadata fps) (h_ne : c.timeline.spans ≠ [])
    (request : Request α) :
    c.row.serve request = .ok ((c.serve request).map id row) ∧
      (c.serve request).2.Sound metadata fps ∧ (c.serve request).2.timeline.spans ≠ [] := by
  cases request with
  | edit e =>
    -- an edit leads to the row of what the step leads to, which is sound again
    refine ⟨?_, h.step (c.step_apply e), (c.step_apply e).spans_ne_nil h_ne⟩
    show c.row.apply e >>= _ = _
    rw [h.apply_row h_ne]
    rfl
  | ask question =>
    -- a question changes nothing
    refine ⟨?_, h, h_ne⟩
    show c.row.ask question >>= _ = _
    rw [h.ask_row h_ne]
    rfl

/-- **All requests.** -/
theorem Sound.serveAll_row (h : c.Sound metadata fps) (h_ne : c.timeline.spans ≠ [])
    (requests : List (Request α)) :
    c.row.serveAll requests = .ok ((c.serveAll requests).map id row) := by
  induction requests generalizing c with
  | nil => rfl
  | cons request rest ih =>
    -- the clip after the first request is again one to which the induction applies
    obtain ⟨h_serve, h_sound, h_spans⟩ := h.serve_row h_ne request
    unfold ClipRow.serveAll
    rw [h_serve, ok_bind]
    show (c.serve request).2.row.serveAll rest >>= _ = _
    rw [ih h_sound h_spans]
    rfl

/-- **No session makes a misstep.** Whatever the settings, the description of the clip and the
requests are, a session that keeps everything in rows and counts positions comes to its end: it
never addresses a position where there is nothing, takes a larger count from a smaller one or
divides by the length of an empty gap. Its answers are those of the library, and so is the clip it
ends with. -/
theorem session_row (settings : Settings α) (metadata : Metadata α) (fps : Nat)
    (requests : List (Request α)) :
    ClipRow.session settings metadata fps requests =
      .ok ((session settings metadata fps requests).map (Prod.map id row)) := by
  unfold ClipRow.session session
  rw [load_row, ok_bind]
  cases h_load : load settings metadata fps with
  | error fault => rfl
  | ok c =>
    have h_reachable : c.Reachable settings metadata fps := ⟨c, [], h_load, rfl⟩
    -- a clip that was loaded is sound and has a span, and requests keep it so
    obtain ⟨-, -, timeline, h_timeline, rfl⟩ := load_eq_ok h_load
    have h_ne : timeline.spans ≠ [] := Timeline.spans_ne_nil_create h_timeline
    show (loaded metadata fps timeline).row.serveAll requests >>= _ = _
    rw [h_reachable.sound.serveAll_row h_ne]
    rfl

end Clip

end ClipEdit
