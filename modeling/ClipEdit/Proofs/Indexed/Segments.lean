import ClipEdit.Proofs.Indexed.Checked
import ClipEdit.Timeline.Edit

/-!
# Timelines as rows of segments

A timeline numbers its spans when it is looked at. `SegmentRow` is the timeline of a program that
keeps the segments in one row, each with its own position, and numbers them anew when a cut or a
join has moved them (`renumber`). Its edits address segments and entries of the log of trims by
position.

What a search finds is the business of the timeline, and does not depend on how the spans are
numbered. The row therefore leaves it to its `timeline`, and only the steps that can go wrong are
spelled out here.
-/

namespace ClipEdit

open Scalar Checked

variable {α : Type}

/-- A timeline as one row of numbered segments. -/
structure SegmentRow (α : Type) where
  duration : α
  segments : List (Segment α)
  trims : List (TrimEntry α)
  epsilon : α
  mergePolicy : MergePolicy
deriving Repr, DecidableEq

/-- The row of a timeline. -/
def Timeline.row (t : Timeline α) : SegmentRow α :=
  ⟨t.duration, t.segments, t.trims, t.epsilon, t.mergePolicy⟩

namespace SegmentRow

/-- The timeline of a row, which has no use for the numbers. -/
def timeline (r : SegmentRow α) : Timeline α :=
  ⟨r.duration, r.segments.map Segment.toSpan, r.trims, r.epsilon, r.mergePolicy⟩

/-! ### Numbers -/

/-- A segment that was not numbered yet. -/
def fresh (start stop speed : α) : Segment α := ⟨⟨start, stop, speed, false⟩, 0, false, false⟩

/-- Number the segments of a row. -/
def renumber (segments : List (Segment α)) : Checked (List (Segment α)) := do
  let last ← minus segments.length 1
  return segments.mapIdx fun i s => { s with index := i, isFirst := i == 0, isLast := i == last }

variable [Scalar α]

/-- The row of a new timeline. -/
def create (duration epsilon : α) (policy : MergePolicy) :
    Checked (Except (ClipFault α) (SegmentRow α)) := do
  if !isFinite duration || duration ≤ 0 then return .error (.emptyTimeline duration)
  else
    let segments ← renumber [fresh 0 duration 1.0]
    return .ok ⟨duration, segments, [], epsilon, policy⟩

/-! ### Reading -/

/-- The position of the segment that a time falls into. The last position is worked out in any
case. -/
def indexAt? (r : SegmentRow α) (time : α) : Checked (Option Nat) := do
  if 0 ≤ time ∧ time ≤ r.duration then
    let last ← minus r.segments.length 1
    let found := r.segments.findIdx? fun s => s.start ≤ time && decide (time < s.stop)
    return some (found.getD last)
  else return none

/-- The part of the source that the trims leave. -/
def trimRange (r : SegmentRow α) : Checked (TimeRange α) := do
  match r.timeline.firstActive?, r.timeline.lastActive? with
  | some first, some last =>
      let start := (← read r.segments first).start
      let stop := (← read r.segments last).stop
      return ⟨start, stop⟩
  | _, _ => return ⟨0, r.duration⟩

/-! ### Boundaries and speeds -/

/-- Cut the segment that a time falls into. -/
def addBoundary (r : SegmentRow α) (time : α) : Checked (Outcome (SegmentRow α)) := do
  if !r.timeline.isFreeForBoundary time then return .refuse r
  else match ← r.indexAt? time with
    | none => return .refuse r
    | some i =>
        let parent ← read r.segments i
        if parent.isTrimmed then return .refuse r
        else
          let segments ← rewrite r.segments i fun s => { s with stop := time }
          let segments ← insertAt segments (i + 1) (fresh time parent.stop parent.speed)
          let segments ← renumber segments
          return .accept { r with segments }

/-- The first position, from `i` on, of a segment that begins near a time. -/
def boundaryFrom? (r : SegmentRow α) (time : α) (i : Nat) : Checked (Option Nat) :=
  if h_lt : i < r.segments.length then do
    let s ← read r.segments i
    if r.timeline.isSameBoundary s.start time then return some i
    else r.boundaryFrom? time (i + 1)
  else return none
termination_by r.segments.length - i

/-- Join the two segments that meet at the first boundary near a time. -/
def removeBoundary (r : SegmentRow α) (time : α) : Checked (Outcome (SegmentRow α)) := do
  match ← r.boundaryFrom? time 1 with
  | none => return .refuse r
  | some right =>
      let left ← minus right 1
      if (← read r.segments left).isTrimmed then return .refuse r
      else if (← read r.segments right).isTrimmed then return .refuse r
      else
        let removed ← removeAt r.segments right
        let segments ← rewrite removed.2 left fun s =>
          { s with toSpan := s.toSpan.join r.mergePolicy removed.1.toSpan }
        let segments ← renumber segments
        return .accept { r with segments }

/-- Change the speed of a segment, if there is one. -/
def setSpeed (r : SegmentRow α) (index : Nat) (speed : α) : Checked (Outcome (SegmentRow α)) := do
  if !isFinite speed || decide (speed ≤ 0) then return .refuse r
  else match r.segments[index]? with
    | none => return .refuse r
    | some _ =>
        let segments ← rewrite r.segments index fun s => { s with speed }
        return .accept { r with segments }

/-! ### Trims -/

/-- A log without its latest entry of a kind, if it has one. -/
def dropLatest (p : TrimEntry α → Bool) (trims : List (TrimEntry α)) :
    Checked (List (TrimEntry α)) := do
  match latest? p trims with
  | none => return trims
  | some i => return (← removeAt trims i).2

/-- Bring back the segment at a position, if it is next to those that are shown. -/
def untrim (r : SegmentRow α) (index : Nat) : Checked (Outcome (SegmentRow α)) := do
  if r.timeline.isInnermost index then
    let s ← read r.segments index
    let trims ← dropLatest (fun entry => entry.segmentStart == s.start) r.trims
    let segments ← rewrite r.segments index fun s => { s with isTrimmed := false }
    return .accept { r with segments, trims }
  else return .refuse r

/-- Trim the segment at a position, or bring it back when it is trimmed. -/
def trim (r : SegmentRow α) (index : Nat) : Checked (Outcome (SegmentRow α)) := do
  match r.segments[index]? with
  | none => return .refuse r
  | some s =>
      if s.isTrimmed then r.untrim index
      else if r.timeline.canTrim index then
        let side := if r.timeline.firstActive? == some index then TrimSide.start else TrimSide.stop
        let edge ← read r.segments index
        let segments ← rewrite r.segments index fun s => { s with isTrimmed := true }
        return .accept { r with segments, trims := r.trims ++ [⟨side, edge.start⟩] }
      else return .refuse r

/-- Take back the latest trim of a side. -/
def detrim (r : SegmentRow α) (side : TrimSide) : Checked (Outcome (SegmentRow α)) := do
  match latest? (fun entry => entry.side == side) r.trims with
  | none => return .refuse r
  | some i =>
      let removed ← removeAt r.trims i
      let r := { r with trims := removed.2 }
      match r.segments.findIdx? fun s => s.start == removed.1.segmentStart with
      | none => return .refuse r
      | some j =>
          let segments ← rewrite r.segments j fun s => { s with isTrimmed := false }
          return .accept { r with segments }

/-- The outcome of an edit. -/
def apply (r : SegmentRow α) : Timeline.Edit α → Checked (Outcome (SegmentRow α))
  | .addBoundary time => r.addBoundary time
  | .removeBoundary time => r.removeBoundary time
  | .setSpeed index speed => r.setSpeed index speed
  | .trim index => r.trim index
  | .detrim side => r.detrim side

end SegmentRow

end ClipEdit
