import ClipEdit.Timeline.Basic
import ClipEdit.Track.Clipboard

/-!
# Export payload

Everything the renderer needs to reproduce an edit: the keyframes of both overlays, whether and how
long the highlight is shown, and the spans of the timeline with the range that the trims leave.
Every number is rounded to thousandths, and every keyframe has the value that is *shown*: an
implicit end has that of the start.
-/

namespace ClipEdit

open Scalar

/-- A keyframe of the payload: what is shown at a frame. -/
structure FrameValue (V : Type) where
  frame : Frame
  value : V
deriving Repr, DecidableEq

/-- The highlight of the payload. -/
structure HighlightExport (α : Type) where
  isEnabled : Bool
  /-- For how many seconds the highlight is shown. -/
  duration : α
  keyframes : List (FrameValue (Highlight α))
deriving Repr, DecidableEq

/-- A span of the payload. -/
structure SpanExport (α : Type) where
  start : α
  stop : α
  speed : α
deriving Repr, DecidableEq

/-- The timeline of the payload: all spans in order, the trimmed ones among them. -/
structure TimelineExport (α : Type) where
  spans : List (SpanExport α)
  trimRange : TimeRange α
deriving Repr, DecidableEq

/-- The payload. -/
structure Export (α : Type) where
  crop : List (FrameValue (Crop α))
  highlight : HighlightExport α
  timeline : TimelineExport α
deriving Repr, DecidableEq

/-- The keyframes of a track as they are shown. -/
def Track.shown {V : Type} (t : Track V) : List (FrameValue V) :=
  t.keyframes.map fun k => ⟨k.frame, if k.frame = t.endFrame then t.endValue else k.value⟩

namespace Export

variable {α : Type} [Scalar α]

/-- A span, rounded. -/
def ofSpan (s : Span α) : SpanExport α :=
  ⟨roundMilli s.start, roundMilli s.stop, roundMilli s.speed⟩

/-- The spans of a timeline and what the trims leave of them, rounded. -/
def ofTimeline (t : Timeline α) : TimelineExport α where
  spans := t.spans.map ofSpan
  trimRange := ⟨roundMilli t.trimRange.start, roundMilli t.trimRange.stop⟩

/-- The payload of two tracks, the settings of the highlight and a timeline. -/
def build (crop : Track (Crop α)) (highlight : Track (Highlight α)) (isEnabled : Bool)
    (duration : α) (timeline : Timeline α) : Export α where
  crop := crop.shown.map fun k => ⟨k.frame, k.value.rounded⟩
  highlight :=
    { isEnabled
      duration := roundMilli duration
      keyframes := highlight.shown.map fun k => ⟨k.frame, k.value.rounded⟩ }
  timeline := ofTimeline timeline

end Export

end ClipEdit
