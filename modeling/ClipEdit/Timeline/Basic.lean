import ClipEdit.Outcome
import ClipEdit.Settings

/-!
# Timelines

The source of a clip, cut into spans. The spans lie end to end from `0` to the duration of the clip;
each has a playback speed of its own, and those at the two ends can be trimmed away. A trimmed span
keeps its data and only stops taking part in what is shown.

This module holds the type and what can be read off it:

* `Timeline.segments` — the spans with their positions, as they are shown to the outside;
* `Timeline.boundaries` — the cuts inside the clip;
* `Timeline.indexAt?` — the span that a time falls into;
* `Timeline.trimRange`, `Timeline.visualDuration` — what trimming and speeds leave.

Cutting, joining, speeds and trims are in `ClipEdit.Timeline.Edit`.
-/

namespace ClipEdit

open Scalar

/-- A stretch of the source, in seconds. -/
structure Span (α : Type) where
  start : α
  stop : α
  /-- The playback speed: `2` is twice as fast. -/
  speed : α
  isTrimmed : Bool
deriving Repr, DecidableEq

/-- A span together with its position in the timeline. -/
structure Segment (α : Type) extends Span α where
  index : Nat
  isFirst : Bool
  isLast : Bool
deriving Repr, DecidableEq

/-- The end of the timeline that a trim was made at. -/
inductive TrimSide where
  | start
  | stop
deriving Repr, DecidableEq

/-- A trim that was made. The span is named by its start, which does not change when cuts are made
or undone elsewhere. -/
structure TrimEntry (α : Type) where
  side : TrimSide
  segmentStart : α
deriving Repr, DecidableEq

/-- A range of source time. -/
structure TimeRange (α : Type) where
  start : α
  stop : α
deriving Repr, DecidableEq

/-- The spans of a clip, the trims that were made, oldest first, and the settings that the timeline
was made with. -/
structure Timeline (α : Type) where
  duration : α
  spans : List (Span α)
  trims : List (TrimEntry α)
  epsilon : α
  mergePolicy : MergePolicy
deriving Repr, DecidableEq

variable {α : Type} [Scalar α]

namespace Span

/-- The length of the span in the source. -/
def duration (s : Span α) : α := s.stop - s.start

/-- The time the span is shown for; none when it is trimmed. -/
def visualDuration (s : Span α) : α :=
  if s.isTrimmed then 0 else s.duration / s.speed

/-- Does the time lie in the span, both ends included? -/
def contains (s : Span α) (time : α) : Bool :=
  s.start ≤ time && time ≤ s.stop

end Span

namespace Timeline

/-- A timeline of one span at normal speed. The duration must be positive and finite. -/
def create (duration epsilon : α) (policy : MergePolicy) : Except (ClipFault α) (Timeline α) :=
  if !isFinite duration || duration ≤ 0 then .error (.emptyTimeline duration)
  else .ok
    { duration
      spans := [⟨0, duration, 1.0, false⟩]
      trims := []
      epsilon
      mergePolicy := policy }

/-- A new timeline under the settings of the moment. -/
def ofSettings (settings : Settings α) (duration : α) : Except (ClipFault α) (Timeline α) :=
  create duration settings.boundaryEpsilon settings.mergePolicy

/-- The span at a position, with that position. -/
def numbered (t : Timeline α) (index : Nat) (s : Span α) : Segment α :=
  { s with
    index
    isFirst := index == 0
    isLast := index + 1 == t.spans.length }

/-- All spans with their positions. -/
def segments (t : Timeline α) : List (Segment α) :=
  t.spans.mapIdx t.numbered

/-- The segment at a position. -/
def segment? (t : Timeline α) (index : Nat) : Option (Segment α) :=
  t.spans[index]?.map (t.numbered index)

/-- The segments that are shown. -/
def activeSegments (t : Timeline α) : List (Segment α) :=
  t.segments.filter fun s => !s.isTrimmed

/-- The segments that are trimmed away. -/
def trimmedSegments (t : Timeline α) : List (Segment α) :=
  t.segments.filter fun s => s.isTrimmed

/-- The spans that are shown. -/
def activeSpans (t : Timeline α) : List (Span α) :=
  t.spans.filter fun s => !s.isTrimmed

/-- How many spans are shown. -/
def activeCount (t : Timeline α) : Nat := t.activeSpans.length

/-- The position of the first span that is shown. -/
def firstActive? (t : Timeline α) : Option Nat :=
  t.spans.findIdx? fun s => !s.isTrimmed

/-- The position of the last span that is shown. -/
def lastActive? (t : Timeline α) : Option Nat :=
  (t.spans.reverse.findIdx? fun s => !s.isTrimmed).map fun i => t.spans.length - 1 - i

/-- The cuts inside the clip, in order: where each span but the first begins. -/
def boundaries (t : Timeline α) : List α :=
  t.spans.tail.map Span.start

/-- The position of the span that a time falls into. A time on a cut falls into the span behind it,
the very end of the clip into the last span. -/
def indexAt? (t : Timeline α) (time : α) : Option Nat :=
  if 0 ≤ time ∧ time ≤ t.duration then
    some ((t.spans.findIdx? fun s => s.start ≤ time && decide (time < s.stop)).getD
      (t.spans.length - 1))
  else none

/-- How long the edited clip is: the visual durations of all spans, added up in order. -/
def visualDuration (t : Timeline α) : α :=
  sum (t.activeSpans.map Span.visualDuration)

/-- The part of the source that the trims leave. -/
def trimRange (t : Timeline α) : TimeRange α :=
  match t.activeSpans.head?, t.activeSpans.getLast? with
  | some first, some last => ⟨first.start, last.stop⟩
  | _, _ => ⟨0, t.duration⟩

end Timeline

end ClipEdit
