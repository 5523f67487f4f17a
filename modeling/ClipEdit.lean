import ClipEdit.Scalar.Exact
import ClipEdit.Overlay.Reshape
import ClipEdit.Preview.Viewport
import ClipEdit.Track.Marker
import ClipEdit.Timeline.Strip
import ClipEdit.Wire.Overlay
import ClipEdit.Wire.Clip
import ClipEdit.Wire.Settings
import ClipEdit.Proofs.Timeline.History
import ClipEdit.Proofs.Timeline.TimeMap
import ClipEdit.Proofs.Scalar.Milli
import ClipEdit.Proofs.Track.Edits
import ClipEdit.Proofs.Track.Preview
import ClipEdit.Proofs.Overlay.Constrain
import ClipEdit.Proofs.Clip.Reachable
import ClipEdit.Proofs.Clip.Refusal
import ClipEdit.Proofs.Clip.Inside
import ClipEdit.Proofs.Clip.Payload
import ClipEdit.Proofs.Gesture.Commit
import ClipEdit.Proofs.Overlay.Resize
import ClipEdit.Proofs.Timeline.Export
import ClipEdit.Proofs.Clip.Commit
import ClipEdit.Proofs.Timeline.Boundaries
import ClipEdit.Proofs.Timeline.Undo
import ClipEdit.Proofs.Timeline.Playback
import ClipEdit.Proofs.Gesture.Capture
import ClipEdit.Proofs.Clip.Coherence
import ClipEdit.Proofs.Track.KeyMap
import ClipEdit.Proofs.Timeline.Strip
import ClipEdit.Proofs.Preview.Zoom
import ClipEdit.Proofs.Indexed.Clips
import ClipEdit.Proofs.Clip.Copying
import ClipEdit.Proofs.Clip.Rounding
import ClipEdit.Proofs.Clip.Finite
import ClipEdit.Proofs.Overlay.Edges
import ClipEdit.Proofs.Overlay.Proportion
import ClipEdit.Proofs.Overlay.Moves
import ClipEdit.Proofs.Overlay.Extended
import ClipEdit.Proofs.Timeline.Retiming
import ClipEdit.Proofs.Timeline.Nearest
import ClipEdit.Proofs.Wire.RoundTrip
import ClipEdit.Proofs.Track.Order
import ClipEdit.Proofs.Track.Curve
import ClipEdit.Proofs.Clip.Playhead
import ClipEdit.Proofs.Track.Landing
import ClipEdit.Proofs.Overlay.Fit
import ClipEdit.Proofs.Track.Marker
import ClipEdit.Proofs.Overlay.RatioText
import ClipEdit.Proofs.Clip.Centre
import ClipEdit.Proofs.Timeline.Lookup
import ClipEdit.Proofs.Preview.Guarded
import ClipEdit.Proofs.Preview.Wheel
import ClipEdit.Proofs.Track.Hits
