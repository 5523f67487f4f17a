import ClipEdit.Json.Wire
import ClipEdit.Timeline.Strip

/-!
# JSON forms of timelines

Segments, trims and the strip they are drawn on, as they travel between the editor and its host.
-/

namespace ClipEdit

open Json

/-- The name of a merge policy. -/
def MergePolicy.label : MergePolicy → String
  | keepLeft => "keepLeft"
  | keepRight => "keepRight"

instance : Wire MergePolicy where
  encode p := text p.label
  decode := nameOf ([.keepLeft, .keepRight].map fun p => (MergePolicy.label p, p))

/-- The name of a side. -/
def TrimSide.label : TrimSide → String
  | start => "start"
  | stop => "end"

instance : Wire TrimSide where
  encode s := text s.label
  decode := nameOf ([.start, .stop].map fun s => (TrimSide.label s, s))

instance : Wire (Segment Float) where
  encode s :=
    ofFields [("index", count s.index), ("start", encode s.start), ("end", encode s.stop),
      ("speed", encode s.speed), ("isTrimmed", encode s.isTrimmed), ("isFirst", encode s.isFirst),
      ("isLast", encode s.isLast)]
  decode v := do
    let r ← record ["index", "start", "end", "speed", "isTrimmed", "isFirst", "isLast"] v
    let index ← r.getWith (countUpTo Number.significandLimit) "index"
    let span : Span Float :=
      ⟨← r.get "start", ← r.get "end", ← r.get "speed", ← r.get "isTrimmed"⟩
    return { span with index, isFirst := ← r.get "isFirst", isLast := ← r.get "isLast" }

instance : Wire (TrimEntry Float) where
  encode e := ofFields [("side", encode e.side), ("segmentStart", encode e.segmentStart)]
  decode v := do
    let r ← record ["side", "segmentStart"] v
    return ⟨← r.get "side", ← r.get "segmentStart"⟩

instance : Wire (TimeRange Float) where
  encode t := ofFields [("start", encode t.start), ("end", encode t.stop)]
  decode v := do
    let r ← record ["start", "end"] v
    return ⟨← r.get "start", ← r.get "end"⟩

instance : Wire (StripShare Float) where
  encode s :=
    ofFields [("segment", encode s.segment), ("visualStartPercent", encode s.visualStart),
      ("visualWidthPercent", encode s.visualWidth)]
  decode v := do
    let r ← record ["segment", "visualStartPercent", "visualWidthPercent"] v
    return ⟨← r.get "segment", ← r.get "visualStartPercent", ← r.get "visualWidthPercent"⟩

instance : Wire (TrimMark Float) where
  encode m :=
    ofFields [("segment", encode m.segment), ("sourceStartPercent", encode m.sourceStart),
      ("sourceWidthPercent", encode m.sourceWidth)]
  decode v := do
    let r ← record ["segment", "sourceStartPercent", "sourceWidthPercent"] v
    return ⟨← r.get "segment", ← r.get "sourceStartPercent", ← r.get "sourceWidthPercent"⟩

end ClipEdit
