import ClipEdit.Outcome
import ClipEdit.Scalar

/-!
# Keyframe tracks

A track gives an overlay a value at certain frames of a clip. It always has a keyframe at frame `0`
and one at the last frame; both are permanent. The keyframes between them belong to the user.

Until it is edited directly, the keyframe at the end is *implicit*: it shows the value of the start,
so moving the start moves the end too. The first direct edit makes it *explicit*, and from then on
the two are independent. There is no way back.

* `Track.insert`, `Track.erase` — the two edits, and `Track.run` for a sequence of them;
* `Track.get?`, `Track.contains` — what stands at a frame;
* `Track.copy?`, `Track.paste` — the two for the clipboard;
* `Track.keyframes` — all keyframes in order, as they are stored;
* `Track.valueAt?` — the value at a time that falls on a keyframe;
* `Track.sample` — the value at any frame, blended between the keyframes around it.
-/

namespace ClipEdit

open Scalar

/-- Who a keyframe belongs to. -/
inductive KeyframeOrigin where
  /-- The keyframe at the start or at the end, which is always there. -/
  | permanent
  /-- A keyframe added by the user. -/
  | user
deriving Repr, DecidableEq

/-- A value pinned to a frame. -/
structure Keyframe (V : Type) where
  frame : Frame
  value : V
  origin : KeyframeOrigin
deriving Repr, DecidableEq

/-- Whether the end of a track follows its start. -/
inductive EndMode where
  /-- The end shows the value of the start. -/
  | implicit
  /-- The end was edited and has a value of its own. -/
  | explicit
deriving Repr, DecidableEq

/-- A track over the frames from `0` to `endFrame`. The frames of `inner`, the user's keyframes,
ascend and lie strictly between the two. -/
structure Track (V : Type) where
  start : V
  inner : List (Frame × V)
  endFrame : Frame
  storedEnd : V
  endMode : EndMode
deriving Repr, DecidableEq

/-- Values that can be blended: `blend a b t` lies a fraction `t` of the way from `a` to `b`. -/
class Blend (α : outParam Type) (V : Type) where
  blend : V → V → α → V

namespace Track

variable {V : Type}

/-- The track of a clip with the given last frame. A clip ends at frame `1` at the earliest, so that
the two permanent keyframes never meet. -/
def create (initial : V) (lastFrame : Frame) : Track V where
  start := initial
  inner := []
  endFrame := max lastFrame 1
  storedEnd := initial
  endMode := .implicit

/-- The value that the end of the track shows. -/
def endValue (t : Track V) : V :=
  match t.endMode with
  | .implicit => t.start
  | .explicit => t.storedEnd

/-- All keyframes in order, as they are stored. -/
def keyframes (t : Track V) : List (Keyframe V) :=
  ⟨0, t.start, .permanent⟩ ::
    t.inner.map (fun (frame, value) => ⟨frame, value, .user⟩) ++
    [⟨t.endFrame, t.storedEnd, .permanent⟩]

/-- The frames that have a keyframe, in order. -/
def frames (t : Track V) : List Frame :=
  t.keyframes.map Keyframe.frame

/-- The number of keyframes. -/
def size (t : Track V) : Nat := t.keyframes.length

/-- The value that the keyframe at a frame shows, if there is one. -/
def get? (t : Track V) (frame : Frame) : Option V :=
  if frame = t.endFrame then some t.endValue
  else if frame = 0 then some t.start
  else t.inner.lookup frame

/-- Is there a keyframe at the frame? -/
def contains (t : Track V) (frame : Frame) : Bool :=
  frame == 0 || frame == t.endFrame || (t.inner.lookup frame).isSome

/-! ### Editing -/

/-- Put a value at a frame: over the one that is there, or in between its neighbours. -/
def insertKey (frame : Frame) (value : V) : List (Frame × V) → List (Frame × V)
  | [] => [(frame, value)]
  | (f, v) :: rest =>
      if frame < f then (frame, value) :: (f, v) :: rest
      else if frame = f then (frame, value) :: rest
      else (f, v) :: insertKey frame value rest

/-- Write a value at a frame, over an existing keyframe or as a new one. Writing the end makes it
explicit, writing the start moves an implicit end along. A frame past the end is refused. -/
def insert (t : Track V) (frame : Frame) (value : V) : Outcome (Track V) :=
  if t.endFrame < frame then .refuse t
  else if frame = t.endFrame then .accept { t with storedEnd := value, endMode := .explicit }
  else if frame = 0 then
    .accept { t with
      start := value
      storedEnd := match t.endMode with
        | .implicit => value
        | .explicit => t.storedEnd }
  else .accept { t with inner := insertKey frame value t.inner }

/-- Remove a keyframe of the user. A frame without one is refused, and so are the permanent
keyframes. -/
def erase (t : Track V) (frame : Frame) : Outcome (Track V) :=
  if (t.inner.lookup frame).isSome then
    .accept { t with inner := t.inner.filter fun key => key.1 != frame }
  else .refuse t

/-- The value that is copied at a frame: what the keyframe there shows. -/
def copy? (t : Track V) (frame : Frame) : Option V := t.get? frame

/-- Paste a copied value at a frame. -/
def paste (t : Track V) (frame : Frame) (value : V) : Outcome (Track V) := t.insert frame value

/-- What can be done to a track. -/
inductive Edit (V : Type) where
  | insert (frame : Frame) (value : V)
  | erase (frame : Frame)
deriving Repr, DecidableEq

/-- The outcome of an edit. -/
def apply (t : Track V) : Edit V → Outcome (Track V)
  | .insert frame value => t.insert frame value
  | .erase frame => t.erase frame

/-- The track after a sequence of edits. -/
def run (t : Track V) (edits : List (Edit V)) : Track V :=
  edits.foldl (fun t e => (t.apply e).state) t

/-! ### Looking up -/

section Scalars

variable {α : Type} [Scalar α]

/-- How far from a whole frame a time may fall and still count as being on it. -/
def frameTolerance : α := 1e-6

/-- The value of the keyframe that a time falls on. Times between frames and frames without a
keyframe have none: what lies between the keyframes is the business of `sample`. -/
def valueAt? (t : Track V) (time : α) (fps : Nat) : Option V :=
  let exact := time * (fps : α)
  let nearest := roundWhole exact
  if nearest < 0 ∨ frameTolerance < magnitude (exact - nearest) then none
  else t.get? (toFrame nearest)

/-- Blend from the keyframe `last` on: `frame` lies behind it, and the keyframes that follow it are
given in order. -/
def sampleFrom [Blend α V] (frame : Frame) (last : Keyframe V) : List (Keyframe V) → V
  | [] => last.value
  | next :: rest =>
      if frame < next.frame then
        Blend.blend last.value next.value
          (((frame - last.frame : Nat) : α) / ((next.frame - last.frame : Nat) : α))
      else if frame = next.frame then next.value
      else sampleFrom frame next rest

/-- The value at a frame: that of the keyframe there, a blend of the two keyframes around it, or the
value at the end for a frame past it. -/
def sample [Blend α V] (t : Track V) (frame : Frame) : V :=
  if t.endFrame ≤ frame then t.endValue
  else if frame = 0 then t.start
  else sampleFrom frame ⟨0, t.start, .permanent⟩ t.keyframes.tail

end Scalars

end Track

end ClipEdit
