import ClipEdit.Clip.Export
import ClipEdit.Gesture.Session
import ClipEdit.Timeline.Edit
import ClipEdit.Timeline.TimeMap

/-!
# Clips

A clip under edit: the two overlay tracks, the timeline and the clipboard, together with the time
map of the timeline. The map is kept, because every move of the playhead asks for it, and made anew
by every edit that changes the timeline.

`Clip.load` checks the description of the clip; after that every edit is carried out or refused
(`Clip.Edit`, `Clip.apply`). Overlays are brought into the frame before they are stored.
-/

namespace ClipEdit

open Scalar

/-- What is known about a clip before it is edited. -/
structure Metadata (α : Type) where
  /-- The width of the frame, in pixels. -/
  width : α
  /-- The height of the frame, in pixels. -/
  height : α
  /-- The length of the clip, in seconds. -/
  duration : α
deriving Repr, DecidableEq

/-- A clip under edit. -/
structure Clip (α : Type) where
  metadata : Metadata α
  fps : Nat
  ratio : AspectRatio
  crop : Track (Crop α)
  highlight : Track (Highlight α)
  highlightEnabled : Bool
  highlightDuration : α
  timeline : Timeline α
  map : TimeMap α
  clipboard : Clipboard α
deriving Repr, DecidableEq

variable {α : Type} [Scalar α]

namespace Metadata

/-- A measure that has to be positive and finite. -/
def check (measure : Measure) (x : α) : Except (ClipFault α) Unit :=
  if !isFinite x || x ≤ 0 then .error (.notPositive measure x) else .ok ()

/-- The first of the three measures that is not positive and finite, if there is one. -/
def validate (m : Metadata α) : Except (ClipFault α) Unit := do
  check .width m.width
  check .height m.height
  check .duration m.duration

/-- The frame of the clip. -/
def frame (m : Metadata α) : Size .video α := ⟨m.width, m.height⟩

end Metadata

namespace Clip

/-! ### Loading -/

/-- A clip as it is loaded: the whole frame as its crop, a highlight in the middle, one span. -/
def load (settings : Settings α) (metadata : Metadata α) (fps : Nat) :
    Except (ClipFault α) (Clip α) := do
  metadata.validate
  if fps = 0 then throw .noFrames
  let timeline ← Timeline.ofSettings settings metadata.duration
  let endFrame := max (Frame.ofTime metadata.duration fps) 1
  let frame := metadata.frame
  return {
    metadata
    fps
    ratio := .free
    crop := .create ((Crop.full frame).constrain frame) endFrame
    highlight := .create ((Highlight.centeredIn frame).constrain frame) endFrame
    highlightEnabled := false
    highlightDuration := metadata.duration
    timeline
    map := .ofTimeline timeline
    clipboard := .empty }

/-- The last frame of the clip, which has the keyframes at the end. -/
def endFrame (c : Clip α) : Frame := c.crop.endFrame

/-- The context for a session on one of the overlays. -/
def editContext (c : Clip α) : EditContext α := ⟨c.metadata.frame, c.ratio⟩

/-! ### Crop -/

/-- The outcome of an edit of the crop track. -/
def withCrop (c : Clip α) (o : Outcome (Track (Crop α))) : Outcome (Clip α) :=
  o.map fun crop => { c with crop }

/-- Bring a crop into the frame and write it at a frame. -/
def setCrop (c : Clip α) (frame : Frame) (value : Crop α) : Outcome (Clip α) :=
  c.withCrop (c.crop.insert frame (value.constrain c.metadata.frame))

/-- Remove a keyframe of the crop. -/
def deleteCrop (c : Clip α) (frame : Frame) : Outcome (Clip α) :=
  c.withCrop (c.crop.erase frame)

/-- Copy a keyframe of the crop. -/
def copyCrop (c : Clip α) (frame : Frame) : Outcome (Clip α) :=
  (c.clipboard.copyFrom c.crop frame).map fun clipboard => { c with clipboard }

/-- Paste the clipboard into the crop. -/
def pasteCrop (c : Clip α) (frame : Frame) : Outcome (Clip α) :=
  c.withCrop (c.clipboard.pasteInto c.crop frame)

/-- Write the result of a gesture on the crop. -/
def commitCrop (c : Clip α) (edit : CommittedEdit (Crop α)) : Outcome (Clip α) :=
  c.setCrop edit.frame edit.value

/-- The crop that is shown at a frame. -/
def cropAt (c : Clip α) (frame : Frame) : Crop α := c.crop.sample frame

/-- Change the lock on the proportions of the crop. A fixed ratio also writes the largest crop of
that ratio, centred, at a frame. A frame past the end is refused. -/
def setRatio (c : Clip α) (ratio : AspectRatio) (frame : Frame) : Outcome (Clip α) :=
  if c.endFrame < frame then .refuse c
  else
    let c := { c with ratio }
    if ratio.isFree then .accept c
    else c.setCrop frame (ratio.fitCrop c.metadata.frame)

/-! ### Highlight -/

/-- The outcome of an edit of the highlight track. -/
def withHighlight (c : Clip α) (o : Outcome (Track (Highlight α))) : Outcome (Clip α) :=
  o.map fun highlight => { c with highlight }

/-- Bring a highlight into the frame and write it at a frame. -/
def setHighlight (c : Clip α) (frame : Frame) (value : Highlight α) : Outcome (Clip α) :=
  c.withHighlight (c.highlight.insert frame (value.constrain c.metadata.frame))

/-- Remove a keyframe of the highlight. -/
def deleteHighlight (c : Clip α) (frame : Frame) : Outcome (Clip α) :=
  c.withHighlight (c.highlight.erase frame)

/-- Copy a keyframe of the highlight. -/
def copyHighlight (c : Clip α) (frame : Frame) : Outcome (Clip α) :=
  (c.clipboard.copyFrom c.highlight frame).map fun clipboard => { c with clipboard }

/-- Paste the clipboard into the highlight. -/
def pasteHighlight (c : Clip α) (frame : Frame) : Outcome (Clip α) :=
  c.withHighlight (c.clipboard.pasteInto c.highlight frame)

/-- Write the result of a gesture on the highlight. -/
def commitHighlight (c : Clip α) (edit : CommittedEdit (Highlight α)) : Outcome (Clip α) :=
  c.setHighlight edit.frame edit.value

/-- The highlight that is shown at a frame. -/
def highlightAt (c : Clip α) (frame : Frame) : Highlight α := c.highlight.sample frame

/-- Show or hide the highlight. -/
def setHighlightEnabled (c : Clip α) (enabled : Bool) : Clip α :=
  { c with highlightEnabled := enabled }

/-- Set for how many seconds the highlight is shown, at most for the length of the clip. A time
that is not positive and finite is refused. -/
def setHighlightDuration (c : Clip α) (seconds : α) : Outcome (Clip α) :=
  if !isFinite seconds || decide (seconds ≤ 0) then .refuse c
  else .accept { c with highlightDuration := atMost seconds c.metadata.duration }

/-! ### Timeline -/

/-- Edit the timeline, and make the map anew if that was accepted. -/
def editTimeline (c : Clip α) (edit : Timeline.Edit α) : Outcome (Clip α) :=
  let o := c.timeline.apply edit
  ⟨o.accepted,
    { c with
      timeline := o.state
      map := if o.accepted then .ofTimeline o.state else c.map }⟩

/-- The length of the edited clip. -/
def visualDuration (c : Clip α) : α := c.map.total

/-- The visual time at which a source time is shown. -/
def toVisual (c : Clip α) (time : α) : α := c.map.toVisual time

/-- The source time that is shown at a visual time. -/
def toSource (c : Clip α) (time : α) : α := c.map.toSource time

/-- The visual time at which a frame is shown. -/
def frameToVisual (c : Clip α) (frame : Frame) : α := c.map.frameToVisual frame c.fps

/-- The frame that is shown at a visual time; the last one at most. -/
def visualToFrame (c : Clip α) (time : α) : Frame :=
  min (c.map.visualToFrame time c.fps) c.endFrame

/-- The source time of a frame. -/
def frameTime (c : Clip α) (frame : Frame) : α := frame.toTime c.fps

/-- The payload for the renderer. -/
def payload (c : Clip α) : Export α :=
  .build c.crop c.highlight c.highlightEnabled c.highlightDuration c.timeline

/-! ### Edits -/

/-- What can be done to a clip. -/
inductive Edit (α : Type) where
  | setCrop (frame : Frame) (value : Crop α)
  | deleteCrop (frame : Frame)
  | copyCrop (frame : Frame)
  | pasteCrop (frame : Frame)
  | commitCrop (edit : CommittedEdit (Crop α))
  | setHighlight (frame : Frame) (value : Highlight α)
  | deleteHighlight (frame : Frame)
  | copyHighlight (frame : Frame)
  | pasteHighlight (frame : Frame)
  | commitHighlight (edit : CommittedEdit (Highlight α))
  | setRatio (ratio : AspectRatio) (frame : Frame)
  | setHighlightEnabled (enabled : Bool)
  | setHighlightDuration (seconds : α)
  | timeline (edit : Timeline.Edit α)
deriving Repr, DecidableEq

/-- The outcome of an edit. -/
def apply (c : Clip α) : Edit α → Outcome (Clip α)
  | .setCrop frame value => c.setCrop frame value
  | .deleteCrop frame => c.deleteCrop frame
  | .copyCrop frame => c.copyCrop frame
  | .pasteCrop frame => c.pasteCrop frame
  | .commitCrop edit => c.commitCrop edit
  | .setHighlight frame value => c.setHighlight frame value
  | .deleteHighlight frame => c.deleteHighlight frame
  | .copyHighlight frame => c.copyHighlight frame
  | .pasteHighlight frame => c.pasteHighlight frame
  | .commitHighlight edit => c.commitHighlight edit
  | .setRatio ratio frame => c.setRatio ratio frame
  | .setHighlightEnabled enabled => .accept (c.setHighlightEnabled enabled)
  | .setHighlightDuration seconds => c.setHighlightDuration seconds
  | .timeline edit => c.editTimeline edit

/-- The clip after a sequence of edits. -/
def run (c : Clip α) (edits : List (Edit α)) : Clip α :=
  edits.foldl (fun c e => (c.apply e).state) c

end Clip

end ClipEdit
