import ClipEdit.Timeline.Basic

/-!
# The timeline strip

How a timeline is drawn, in percent of the width of its strip: the segments that are shown share the
strip in proportion to their visual durations (`Timeline.layout`), and the trimmed ones are
indicated where they lie in the source (`Timeline.indicators`).
-/

namespace ClipEdit

open Scalar

/-- A segment that is shown and its share of the visual time, in percent. -/
structure StripShare (α : Type) where
  segment : Segment α
  visualStart : α
  visualWidth : α
deriving Repr, DecidableEq

/-- A trimmed segment and its place in the source, in percent. -/
structure TrimMark (α : Type) where
  segment : Segment α
  sourceStart : α
  sourceWidth : α
deriving Repr, DecidableEq

namespace Timeline

variable {α : Type} [Scalar α]

/-- The segments laid end to end, the first one from `cursor` on, on a strip of length `total`. -/
def layOutStrip (total cursor : α) : List (Segment α) → List (StripShare α)
  | [] => []
  | s :: rest =>
      ⟨s, cursor / total * 100.0, s.visualDuration / total * 100.0⟩ ::
        layOutStrip total (cursor + s.visualDuration) rest

/-- The segments that are shown, each with its share of the visual time. -/
def layout (t : Timeline α) : List (StripShare α) :=
  let total := t.visualDuration
  if total ≤ 0 then [] else layOutStrip total 0 t.activeSegments

/-- The trimmed segments, each with its place in the source. -/
def indicators (t : Timeline α) : List (TrimMark α) :=
  t.trimmedSegments.map fun s =>
    ⟨s, s.start / t.duration * 100.0, s.duration / t.duration * 100.0⟩

end Timeline

end ClipEdit
