import ClipEdit.Timeline.Basic

/-!
# Source time and visual time

The edited clip runs on *visual* time: trimmed spans take none of it, and a span at speed `k` takes
a `k`-th of its length. A `TimeMap` is a snapshot of the spans that a timeline shows, laid end to
end on both clocks, and converts between the two: `toVisual` and `toSource`. It is made anew after
every edit, never patched.

A map without pieces leaves all times as they are.
-/

namespace ClipEdit

open Scalar

variable {α : Type} [Scalar α]

/-! ### Frames -/

/-- The time at which a frame is shown. Without a frame rate every frame is shown at once. -/
def Frame.toTime (frame : Frame) (fps : Nat) : α :=
  if fps = 0 then 0 else (frame : α) / (fps : α)

/-- The frame nearest to a time. Times before the clip, and times that are no number, belong to
frame `0`. -/
def Frame.ofTime (time : α) (fps : Nat) : Frame :=
  if !isFinite time || time ≤ 0 then 0 else toFrame (roundWhole (time * (fps : α)))

/-! ### Maps -/

/-- A span that is shown, with its place on both clocks. -/
structure Piece (α : Type) where
  sourceStart : α
  sourceStop : α
  visualStart : α
  visualStop : α
  speed : α
deriving Repr, DecidableEq

/-- The spans that are shown, in order. -/
structure TimeMap (α : Type) where
  pieces : List (Piece α)
deriving Repr, DecidableEq

namespace TimeMap

/-- The map that leaves all times as they are. -/
def identity : TimeMap α := ⟨[]⟩

/-- Spans laid end to end on the visual clock, from `cursor` on. -/
def layOut (cursor : α) : List (Span α) → List (Piece α)
  | [] => []
  | s :: rest =>
      let next := cursor + s.visualDuration
      ⟨s.start, s.stop, cursor, next, s.speed⟩ :: layOut next rest

/-- The map of a timeline. -/
def ofTimeline (t : Timeline α) : TimeMap α := ⟨layOut 0 t.activeSpans⟩

/-- Does the map leave all times as they are? -/
def isIdentity (m : TimeMap α) : Bool := m.pieces.isEmpty

/-- The length of the edited clip. -/
def total (m : TimeMap α) : α :=
  match m.pieces.getLast? with
  | some last => last.visualStop
  | none => 0

/-- Look for a source time among pieces: before a piece, it is shown where that piece begins. -/
def scanSource (time fallback : α) : List (Piece α) → α
  | [] => fallback
  | p :: rest =>
      if time < p.sourceStart then p.visualStart
      else if time ≤ p.sourceStop then p.visualStart + (time - p.sourceStart) / p.speed
      else scanSource time fallback rest

/-- The visual time at which a source time is shown. A time that was trimmed away is shown at the
nearest end of what is left. -/
def toVisual (m : TimeMap α) (time : α) : α :=
  match m.pieces.getLast? with
  | none => time
  | some last => scanSource time last.visualStop m.pieces

/-- The source time that is shown at a visual time. Times before the beginning show the beginning,
times past the end show the end. -/
def toSource (m : TimeMap α) (time : α) : α :=
  match m.pieces.head?, m.pieces.getLast? with
  | some first, some last =>
      if time ≤ 0 then first.sourceStart
      else match m.pieces.find? fun p => decide (time ≤ p.visualStop) with
        | some p => p.sourceStart + (time - p.visualStart) * p.speed
        | none => last.sourceStop
  | _, _ => time

/-- The visual time at which a frame of the source is shown. -/
def frameToVisual (m : TimeMap α) (frame : Frame) (fps : Nat) : α :=
  m.toVisual (frame.toTime fps)

/-- The frame of the source that is shown at a visual time. -/
def visualToFrame (m : TimeMap α) (time : α) (fps : Nat) : Frame :=
  Frame.ofTime (m.toSource time) fps

end TimeMap

end ClipEdit
