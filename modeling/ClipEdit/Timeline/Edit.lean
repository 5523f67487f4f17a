import ClipEdit.Timeline.Basic

/-!
# Editing timelines

The edits of a timeline. Each one is carried out or refused:

* `addBoundary` cuts a span in two, `removeBoundary` joins two spans;
* `setSpeed` changes the speed of a span;
* `trim` trims the first or the last span that is shown, or brings back the innermost span that was
  trimmed; `detrim` takes back the latest trim of one side.

A cut is refused at the ends of the clip, close to another cut and inside a trimmed span; a join is
refused next to a trimmed span. At least one span is always shown.
-/

namespace ClipEdit

open Scalar

variable {α : Type} [Scalar α]

namespace Span

/-- The two halves of a span cut at a time. Both keep its speed; the half behind the cut is shown. -/
def cut (s : Span α) (time : α) : List (Span α) :=
  [{ s with stop := time }, { s with start := time, isTrimmed := false }]

/-- Two neighbours as one span; the policy chooses between their speeds. -/
def join (policy : MergePolicy) (left right : Span α) : Span α :=
  { left with
    stop := right.stop
    speed := match policy with
      | .keepLeft => left.speed
      | .keepRight => right.speed }

end Span

namespace Timeline

/-- Are two times so close that they are the same boundary? -/
def isSameBoundary (t : Timeline α) (boundary time : α) : Bool :=
  decide (magnitude (boundary - time) < t.epsilon)

/-! ### Boundaries -/

/-- May a cut be made at the time, as far as the other cuts and the ends of the clip go? -/
def isFreeForBoundary (t : Timeline α) (time : α) : Bool :=
  isFinite time && !decide (time ≤ t.epsilon) && !decide (t.duration - t.epsilon ≤ time) &&
    !t.boundaries.any fun b => t.isSameBoundary b time

/-- Cut the span that a time falls into. -/
def addBoundary (t : Timeline α) (time : α) : Outcome (Timeline α) :=
  if !t.isFreeForBoundary time then .refuse t
  else match t.indexAt? time with
    | none => .refuse t
    | some i =>
        match t.spans[i]? with
        | none => .refuse t
        | some s =>
            if s.isTrimmed then .refuse t
            else .accept { t with spans := t.spans.take i ++ s.cut time ++ t.spans.drop (i + 1) }

/-- Join the two spans that meet at the first boundary near a time. -/
def removeBoundary (t : Timeline α) (time : α) : Outcome (Timeline α) :=
  match t.boundaries.findIdx? fun b => t.isSameBoundary b time with
  | none => .refuse t
  | some i =>
      match t.spans[i]?, t.spans[i + 1]? with
      | some left, some right =>
          if left.isTrimmed || right.isTrimmed then .refuse t
          else .accept { t with
            spans := t.spans.take i ++ [left.join t.mergePolicy right] ++ t.spans.drop (i + 2) }
      | _, _ => .refuse t

/-! ### Speed -/

/-- Change the speed of a span. Any positive, finite speed will do. -/
def setSpeed (t : Timeline α) (index : Nat) (speed : α) : Outcome (Timeline α) :=
  if !isFinite speed || decide (speed ≤ 0) || decide (t.spans.length ≤ index) then .refuse t
  else .accept { t with spans := t.spans.modify index fun s => { s with speed } }

/-! ### Trims -/

/-- Is the span at a position shown, next to a trimmed end, and not the only one that is shown? -/
def canTrim (t : Timeline α) (index : Nat) : Bool :=
  match t.spans[index]? with
  | none => false
  | some s =>
      !s.isTrimmed && decide (1 < t.activeCount) &&
        (t.firstActive? == some index || t.lastActive? == some index)

/-- Is the position next to the spans that are shown? -/
def isInnermost (t : Timeline α) (index : Nat) : Bool :=
  match t.firstActive?, t.lastActive? with
  | some first, some last => index + 1 == first || index == last + 1
  | _, _ => false

/-- Mark the span at a position as trimmed or as shown. -/
def mark (t : Timeline α) (index : Nat) (isTrimmed : Bool) : List (Span α) :=
  t.spans.modify index fun s => { s with isTrimmed }

/-- The trims without the latest one that has a property. -/
def withoutLatest (p : TrimEntry α → Bool) (trims : List (TrimEntry α)) : List (TrimEntry α) :=
  (trims.reverse.eraseP p).reverse

/-- Trim the span at a position, or bring it back when it is trimmed. -/
def trim (t : Timeline α) (index : Nat) : Outcome (Timeline α) :=
  match t.spans[index]? with
  | none => .refuse t
  | some s =>
      if s.isTrimmed then
        if t.isInnermost index then
          .accept { t with
            spans := t.mark index false
            trims := withoutLatest (fun entry => entry.segmentStart == s.start) t.trims }
        else .refuse t
      else if t.canTrim index then
        let side := if t.firstActive? == some index then TrimSide.start else TrimSide.stop
        .accept { t with
          spans := t.mark index true
          trims := t.trims ++ [⟨side, s.start⟩] }
      else .refuse t

/-- Take back the latest trim of a side. Should no span begin where that trim was made, only its
entry is dropped, and the edit counts as refused. -/
def detrim (t : Timeline α) (side : TrimSide) : Outcome (Timeline α) :=
  match t.trims.reverse.find? fun entry => entry.side == side with
  | none => .refuse t
  | some entry =>
      let t := { t with trims := withoutLatest (fun e => e.side == side) t.trims }
      match t.spans.findIdx? fun s => s.start == entry.segmentStart with
      | none => .refuse t
      | some i => .accept { t with spans := t.mark i false }

/-- What can be done to a timeline. -/
inductive Edit (α : Type) where
  | addBoundary (time : α)
  | removeBoundary (time : α)
  | setSpeed (index : Nat) (speed : α)
  | trim (index : Nat)
  | detrim (side : TrimSide)
deriving Repr, DecidableEq

/-- The outcome of an edit. -/
def apply (t : Timeline α) : Edit α → Outcome (Timeline α)
  | .addBoundary time => t.addBoundary time
  | .removeBoundary time => t.removeBoundary time
  | .setSpeed index speed => t.setSpeed index speed
  | .trim index => t.trim index
  | .detrim side => t.detrim side

/-- Let another policy choose the speed of joined spans from now on. -/
def setMergePolicy (t : Timeline α) (policy : MergePolicy) : Timeline α :=
  { t with mergePolicy := policy }

end Timeline

end ClipEdit
