import ClipEdit.Gesture.Capture
import ClipEdit.Outcome
import ClipEdit.Overlay.Reshape
import ClipEdit.Preview.Viewport

/-!
# Editing sessions

A session turns pointer events into edits of one overlay. It is idle until the pointer goes down: on
the body of the overlay to drag it, on a handle to resize it, or on the backdrop to pan the
viewport. Only one gesture runs at a time, and it ends when the pointer goes up or is lost.

* Every move computes the *live* value anew, from the overlay as it was when the pointer went down
  and the whole way the pointer has gone since then.
* `Session.up` commits the last live value, if there was one; `Session.cancel` drops it.
* The context cannot change during a gesture.

The session never touches a track: it hands out a `CommittedEdit` and leaves writing it to its
owner.
-/

namespace ClipEdit

/-- The gesture in progress. -/
inductive Gesture (α γ η : Type) where
  | idle
  | dragging (grabbed : γ) (pointer : Point .screen α) (live : Option γ)
  | resizing (grabbed : γ) (pointer : Point .screen α) (handle : η) (live : Option γ)
  | panning (pointer pan : Point .screen α)
deriving Repr, DecidableEq

namespace Gesture

variable {α γ η : Type}

/-- Is no gesture in progress? -/
def isIdle : Gesture α γ η → Bool
  | idle => true
  | _ => false

/-- Is the overlay being dragged? -/
def isDragging : Gesture α γ η → Bool
  | dragging .. => true
  | _ => false

/-- Is the overlay being resized? -/
def isResizing : Gesture α γ η → Bool
  | resizing .. => true
  | _ => false

/-- Is the viewport being panned? -/
def isPanning : Gesture α γ η → Bool
  | panning .. => true
  | _ => false

/-- The latest value of the overlay, once the pointer has moved. -/
def live? : Gesture α γ η → Option γ
  | dragging _ _ live => live
  | resizing _ _ _ live => live
  | _ => none

end Gesture

/-- The result of a gesture, to be written at a frame. -/
structure CommittedEdit (γ : Type) where
  frame : Frame
  value : γ
deriving Repr, DecidableEq

/-- A session over overlays of type `γ` with handles of type `η`, on behalf of a host of type
`C`. -/
structure Session (C α γ η : Type) where
  gesture : Gesture α γ η
  context : EditContext α
  capture : C
deriving Repr, DecidableEq

namespace Session

variable {C α γ η : Type} [PointerCapture C]

/-- An idle session. -/
def create (context : EditContext α) (capture : C) : Session C α γ η :=
  ⟨.idle, context, capture⟩

/-- Begin a gesture. While another one is in progress this is refused. -/
def enter (s : Session C α γ η) (gesture : Gesture α γ η) : Outcome (Session C α γ η) :=
  if s.gesture.isIdle then
    .accept { s with gesture, capture := PointerCapture.attach s.capture }
  else .refuse s

/-- End the gesture in progress, if there is one. -/
def leave (s : Session C α γ η) : Session C α γ η :=
  if s.gesture.isIdle then s
  else { s with gesture := .idle, capture := PointerCapture.detach s.capture }

/-- The pointer went down on the body of the overlay. -/
def downBody (s : Session C α γ η) (value : γ) (pointer : Point .screen α) :
    Outcome (Session C α γ η) :=
  s.enter (.dragging value pointer none)

/-- The pointer went down on a handle of the overlay. -/
def downHandle (s : Session C α γ η) (value : γ) (handle : η) (pointer : Point .screen α) :
    Outcome (Session C α γ η) :=
  s.enter (.resizing value pointer handle none)

/-- The pointer went down on the backdrop. -/
def downPan (s : Session C α γ η) (pointer : Point .screen α) (viewport : Viewport α) :
    Outcome (Session C α γ η) :=
  s.enter (.panning pointer viewport.pan)

/-- The pointer went up: the gesture ends, and its last live value is to be written at a frame. -/
def up (s : Session C α γ η) (frame : Frame) : Session C α γ η × Option (CommittedEdit γ) :=
  (s.leave, s.gesture.live?.map (CommittedEdit.mk frame))

/-- The pointer was lost: the gesture ends without a result. -/
def cancel (s : Session C α γ η) : Session C α γ η := s.leave

/-- Replace the context, unless a gesture is in progress. -/
def setContext (s : Session C α γ η) (context : EditContext α) : Outcome (Session C α γ η) :=
  if s.gesture.isIdle then .accept { s with context } else .refuse s

variable [Scalar α] [Reshape α γ η]

/-- The pointer moved. A drag or a resize gets a new live value, a pan shifts the viewport. -/
def move (s : Session C α γ η) (pointer : Point .screen α) (viewport : Viewport α) :
    Session C α γ η × Viewport α :=
  match s.gesture with
  | .idle => (s, viewport)
  | .dragging value start _ =>
      let live := Reshape.moved s.context (viewport.deltaToVideo (pointer - start)) value
      ({ s with gesture := .dragging value start (some live) }, viewport)
  | .resizing value start handle _ =>
      let live := Reshape.resized s.context handle (viewport.deltaToVideo (pointer - start)) value
      ({ s with gesture := .resizing value start handle (some live) }, viewport)
  | .panning start pan => (s, viewport.setPan (pan + (pointer - start)))

/-- What can happen to a session and its viewport. -/
inductive Event (α γ η : Type) where
  | downBody (value : γ) (pointer : Point .screen α)
  | downHandle (value : γ) (handle : η) (pointer : Point .screen α)
  | downPan (pointer : Point .screen α)
  | move (pointer : Point .screen α)
  | up (frame : Frame)
  | cancel
  | setContext (context : EditContext α)
  | view (step : Viewport.Step α)
deriving Repr, DecidableEq

/-- What an event answers: whether it was accepted, the live value, the commit, or nothing. -/
inductive Answer (γ : Type) where
  | accepted (yes : Bool)
  | live (value : Option γ)
  | commit (edit : Option (CommittedEdit γ))
  | done
deriving Repr, DecidableEq

/-- The session, the viewport and the answer after an event. -/
def step (s : Session C α γ η) (viewport : Viewport α) :
    Event α γ η → Session C α γ η × Viewport α × Answer γ
  | .downBody value pointer =>
      let o := s.downBody value pointer
      (o.state, viewport, .accepted o.accepted)
  | .downHandle value handle pointer =>
      let o := s.downHandle value handle pointer
      (o.state, viewport, .accepted o.accepted)
  | .downPan pointer =>
      let o := s.downPan pointer viewport
      (o.state, viewport, .accepted o.accepted)
  | .move pointer =>
      let (s, viewport) := s.move pointer viewport
      (s, viewport, .live s.gesture.live?)
  | .up frame =>
      let (s, edit) := s.up frame
      (s, viewport, .commit edit)
  | .cancel => (s.cancel, viewport, .done)
  | .setContext context =>
      let o := s.setContext context
      (o.state, viewport, .accepted o.accepted)
  | .view step => (s, viewport.apply step, .done)

end Session

end ClipEdit
