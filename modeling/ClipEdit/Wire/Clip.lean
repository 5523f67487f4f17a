import ClipEdit.Clip.Basic
import ClipEdit.Wire.Timeline

/-!
# JSON forms of clips

The description a clip is loaded from and the payload that is handed to the renderer.
-/

namespace ClipEdit

open Json

instance : Wire (Metadata Float) where
  encode m :=
    ofFields [("width", encode m.width), ("height", encode m.height),
      ("duration", encode m.duration)]
  decode v := do
    let r ← record ["width", "height", "duration"] v
    return ⟨← r.get "width", ← r.get "height", ← r.get "duration"⟩

instance : Wire (FrameValue (Crop Float)) where
  encode k :=
    ofFields [("frame", count k.frame), ("x", encode k.value.x), ("y", encode k.value.y),
      ("width", encode k.value.width), ("height", encode k.value.height)]
  decode v := do
    let r ← record ["frame", "x", "y", "width", "height"] v
    let frame ← r.getWith (countUpTo Frame.limit) "frame"
    return ⟨frame, ⟨← r.get "x", ← r.get "y", ← r.get "width", ← r.get "height"⟩⟩

instance : Wire (FrameValue (Highlight Float)) where
  encode k :=
    ofFields [("frame", count k.frame), ("x", encode k.value.x), ("y", encode k.value.y),
      ("radiusX", encode k.value.radiusX), ("radiusY", encode k.value.radiusY),
      ("opacity", encode k.value.opacity), ("color", encode k.value.color)]
  decode v := do
    let r ← record ["frame", "x", "y", "radiusX", "radiusY", "opacity", "color"] v
    let frame ← r.getWith (countUpTo Frame.limit) "frame"
    return ⟨frame, ⟨← r.get "x", ← r.get "y", ← r.get "radiusX", ← r.get "radiusY",
      ← r.get "opacity", ← r.get "color"⟩⟩

instance : Wire (HighlightExport Float) where
  encode h :=
    ofFields [("enabled", encode h.isEnabled), ("duration", encode h.duration),
      ("keyframes", encode h.keyframes)]
  decode v := do
    let r ← record ["enabled", "duration", "keyframes"] v
    return ⟨← r.get "enabled", ← r.get "duration", ← r.get "keyframes"⟩

instance : Wire (SpanExport Float) where
  encode s := ofFields [("start", encode s.start), ("end", encode s.stop), ("speed", encode s.speed)]
  decode v := do
    let r ← record ["start", "end", "speed"] v
    return ⟨← r.get "start", ← r.get "end", ← r.get "speed"⟩

instance : Wire (TimelineExport Float) where
  encode t := ofFields [("segments", encode t.spans), ("trimRange", encode t.trimRange)]
  decode v := do
    let r ← record ["segments", "trimRange"] v
    return ⟨← r.get "segments", ← r.get "trimRange"⟩

instance : Wire (Export Float) where
  encode e :=
    ofFields [("cropKeyframes", encode e.crop), ("highlight", encode e.highlight),
      ("segmentData", encode e.timeline)]
  decode v := do
    let r ← record ["cropKeyframes", "highlight", "segmentData"] v
    return ⟨← r.get "cropKeyframes", ← r.get "highlight", ← r.get "segmentData"⟩

end ClipEdit
