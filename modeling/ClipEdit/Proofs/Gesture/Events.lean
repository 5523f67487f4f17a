import ClipEdit.Gesture.Session
import Mathlib.Data.List.Induction

/-!
# Sessions under events

A session and the viewport that its pointer moves over are a `Scene`; the events change a scene one
after the other (`Scene.next`, `Scene.run`), and every event is answered.

A gesture passes through three kinds of events, and each kind has one lemma for one event:

* `next_of_idle` — while no gesture is in progress, nothing but the pointer going down begins one;
* `next_of_busy`, `next_move` — in a gesture, every event but a release keeps the overlay that was
  grabbed, the place where it was grabbed and the context, and only a move changes the live value;
* `next_release` — a release ends the gesture, whatever it was.

`exists_down` and `run_of_grabbed` are the same for sequences of events: a gesture in progress began
with a pointer-down that was accepted and has not been released since, and what was grabbed then is
what the session still holds. An event that is refused changes nothing at all (`next_of_refused`).

All of this holds for every kind of scalars and for both kinds of overlays.
-/

namespace ClipEdit

open Scalar

/-! ### Kinds of events -/

namespace Session.Event

variable {α γ η : Type}

/-- The pointer goes down. -/
def isDown : Event α γ η → Bool
  | downBody .. | downHandle .. | downPan .. => true
  | _ => false

/-- The pointer moves. -/
def isMove : Event α γ η → Bool
  | move _ => true
  | _ => false

/-- The pointer goes up or is lost. -/
def isRelease : Event α γ η → Bool
  | up _ | cancel => true
  | _ => false

/-- Among events that move the pointer there is a last one that does. -/
theorem exists_last_move {events : List (Event α γ η)}
    (h : ∃ e ∈ events, e.isMove = true) :
    ∃ during pointer rest, events = during ++ .move pointer :: rest ∧
      ∀ e ∈ rest, e.isMove = false := by
  induction events using List.reverseRecOn with
  | nil => simp at h
  | append_singleton events e ih =>
    by_cases h_move : e.isMove = true
    · cases e with
      | move pointer => exact ⟨events, pointer, [], rfl, by simp⟩
      | _ => simp [isMove] at h_move
    · -- the event at the end is none, so the last one is further ahead
      obtain ⟨e', he', h_move'⟩ := h
      have h_ahead : ∃ e ∈ events, e.isMove = true := by
        rcases List.mem_append.mp he' with he' | he'
        · exact ⟨e', he', h_move'⟩
        · rw [List.mem_singleton.mp he'] at h_move'
          exact absurd h_move' h_move
      obtain ⟨during, pointer, rest, rfl, h_still⟩ := ih h_ahead
      refine ⟨during, pointer, rest ++ [e], by simp, ?_⟩
      intro e' he'
      rcases List.mem_append.mp he' with he' | he'
      · exact h_still e' he'
      · rw [List.mem_singleton.mp he']
        simpa using h_move

end Session.Event

/-- How an overlay is grabbed: by its body to be dragged, or by a handle to be resized. -/
inductive Grip (α γ η : Type) where
  | drag (value : γ) (pointer : Point .screen α)
  | resize (value : γ) (handle : η) (pointer : Point .screen α)

namespace Grip

variable {α γ η : Type}

/-- The event that grabs the overlay. -/
def event : Grip α γ η → Session.Event α γ η
  | drag value pointer => .downBody value pointer
  | resize value handle pointer => .downHandle value handle pointer

/-- The gesture that holds the overlay, with a live value or without one. -/
def gesture (live : Option γ) : Grip α γ η → Gesture α γ η
  | drag value pointer => .dragging value pointer live
  | resize value handle pointer => .resizing value pointer handle live

/-- Where the pointer went down. -/
def pointer : Grip α γ η → Point .screen α
  | drag _ pointer => pointer
  | resize _ _ pointer => pointer

/-- The overlay after it has been dragged or resized by a distance. -/
def reshaped [Reshape α γ η] (context : EditContext α) (d : Point .video α) : Grip α γ η → γ
  | drag value _ => Reshape.moved context d value
  | resize value handle _ => Reshape.resized context handle d value

@[simp] theorem isDown_event (grip : Grip α γ η) : grip.event.isDown = true := by
  cases grip <;> rfl

@[simp] theorem live?_gesture (grip : Grip α γ η) (live : Option γ) :
    (grip.gesture live).live? = live := by
  cases grip <;> rfl

theorem gesture_ne_idle (grip : Grip α γ η) (live : Option γ) : grip.gesture live ≠ .idle := by
  cases grip <;> simp [gesture]

end Grip

/-! ### Beginning and ending a gesture -/

namespace Session

variable {C α γ η : Type} [PointerCapture C] {s : Session C α γ η}

theorem enter_of_idle (h : s.gesture.isIdle = true) (gesture : Gesture α γ η) :
    s.enter gesture = .accept { s with gesture, capture := PointerCapture.attach s.capture } :=
  if_pos h

theorem enter_of_busy (h : s.gesture.isIdle = false) (gesture : Gesture α γ η) :
    s.enter gesture = .refuse s :=
  if_neg (by simp [h])

theorem leave_of_idle (h : s.gesture.isIdle = true) : s.leave = s :=
  if_pos h

theorem leave_of_busy (h : s.gesture.isIdle = false) :
    s.leave = { s with gesture := .idle, capture := PointerCapture.detach s.capture } :=
  if_neg (by simp [h])

end Session

/-! ### Scenes -/

/-- A session and the viewport that its pointer moves over. -/
structure Scene (C α γ η : Type) where
  session : Session C α γ η
  viewport : Viewport α

namespace Scene

variable {C α γ η : Type} [PointerCapture C] [Scalar α] [Reshape α γ η]

/-- A new session over a viewport. -/
def create (context : EditContext α) (capture : C) (viewport : Viewport α) : Scene C α γ η :=
  ⟨.create context capture, viewport⟩

/-- The scene after an event. -/
def next (p : Scene C α γ η) (e : Session.Event α γ η) : Scene C α γ η :=
  ⟨(p.session.step p.viewport e).1, (p.session.step p.viewport e).2.1⟩

/-- What an event answers in a scene. -/
def answer (p : Scene C α γ η) (e : Session.Event α γ η) : Session.Answer γ :=
  (p.session.step p.viewport e).2.2

/-- The scene after a sequence of events. -/
def run (p : Scene C α γ η) (events : List (Session.Event α γ η)) : Scene C α γ η :=
  events.foldl next p

variable {p : Scene C α γ η} {e : Session.Event α γ η} {events : List (Session.Event α γ η)}
  {grip : Grip α γ η} {live : Option γ}

@[simp] theorem run_nil (p : Scene C α γ η) : p.run [] = p := rfl

@[simp] theorem run_cons (p : Scene C α γ η) (e : Session.Event α γ η)
    (events : List (Session.Event α γ η)) : p.run (e :: events) = (p.next e).run events := rfl

theorem run_append (p : Scene C α γ η) (events more : List (Session.Event α γ η)) :
    p.run (events ++ more) = (p.run events).run more :=
  List.foldl_append

/-- A release commits the live value, if there is one. -/
theorem answer_up (p : Scene C α γ η) (frame : Frame) :
    p.answer (.up frame) = .commit (p.session.gesture.live?.map (CommittedEdit.mk frame)) := rfl

/-! ### One event -/

/-- **A release ends the gesture.** -/
theorem next_release (h : e.isRelease = true) : (p.next e).session.gesture = .idle := by
  -- both kinds of releases leave the gesture, and leaving without one changes nothing
  have h_leave : p.session.leave.gesture = .idle := by
    unfold Session.leave
    cases h_gesture : p.session.gesture with
    | idle => simp [Gesture.isIdle, h_gesture]
    | _ => simp [Gesture.isIdle]
  cases e with
  | up frame => exact h_leave
  | cancel => exact h_leave
  | _ => simp [Session.Event.isRelease] at h

/-- **Nothing but the pointer going down begins a gesture.** -/
theorem next_of_idle (h_idle : p.session.gesture = .idle) (h_down : e.isDown = false) :
    (p.next e).session.gesture = .idle := by
  cases e with
  | downBody | downHandle | downPan => simp [Session.Event.isDown] at h_down
  | move pointer => simp [next, Session.step, Session.move, h_idle]
  | up frame => exact next_release rfl
  | cancel => exact next_release rfl
  | setContext context =>
    simp [next, Session.step, Session.setContext, h_idle, Gesture.isIdle]
  | view step => exact h_idle

/-- **In a gesture, only moves and releases count**: any other event is refused or is not the
session's business. -/
theorem next_of_busy (h_busy : p.session.gesture ≠ .idle) (h_move : e.isMove = false)
    (h_release : e.isRelease = false) : (p.next e).session = p.session := by
  -- the three events that begin a gesture, and a new context, are for an idle session only
  have h_idle : p.session.gesture.isIdle = false := by
    cases h_gesture : p.session.gesture with
    | idle => exact absurd h_gesture h_busy
    | _ => rfl
  cases e with
  | move => simp [Session.Event.isMove] at h_move
  | up | cancel => simp [Session.Event.isRelease] at h_release
  | downBody value pointer => simp [next, Session.step, Session.downBody, Session.enter, h_idle]
  | downHandle value handle pointer =>
    simp [next, Session.step, Session.downHandle, Session.enter, h_idle]
  | downPan pointer => simp [next, Session.step, Session.downPan, Session.enter, h_idle]
  | setContext context => simp [next, Session.step, Session.setContext, h_idle]
  | view step => rfl

/-- **A move reshapes the overlay that was grabbed**, and not its latest live value: the new value
depends on the place where the pointer is and not on the way it has taken. -/
theorem next_move (h : p.session.gesture = grip.gesture live) (pointer : Point .screen α) :
    (p.next (.move pointer)).session =
      { p.session with
        gesture := grip.gesture (some (grip.reshaped p.session.context
          (p.viewport.deltaToVideo (pointer - grip.pointer)))) } := by
  cases grip with
  | drag value start =>
    rw [Grip.gesture] at h
    simp only [next, Session.step, Session.move, h]
    rfl
  | resize value start handle =>
    rw [Grip.gesture] at h
    simp only [next, Session.step, Session.move, h]
    rfl

/-- A move over the backdrop shifts the viewport and leaves the session alone. -/
theorem next_move_of_panning {start pan : Point .screen α}
    (h : p.session.gesture = .panning start pan) (pointer : Point .screen α) :
    (p.next (.move pointer)).session = p.session := by
  simp [next, Session.step, Session.move, h]

/-- **An event that is refused changes nothing**, neither the session nor the viewport. -/
theorem next_of_refused (h : p.answer e = .accepted false) : p.next e = p := by
  -- two kinds of events can be refused: those that begin a gesture
  have h_enter : ∀ gesture : Gesture α γ η, (p.session.enter gesture).accepted = false →
      (p.session.enter gesture).state = p.session := by
    intro gesture h_refused
    cases h_idle : p.session.gesture.isIdle with
    | true =>
      rw [Session.enter_of_idle h_idle] at h_refused
      exact absurd h_refused (by simp)
    | false => rw [Session.enter_of_busy h_idle, Outcome.state_refuse]
  have h_view : ∀ session : Session C α γ η, session = p.session →
      (⟨session, p.viewport⟩ : Scene C α γ η) = p := by
    rintro _ rfl
    rfl
  cases e with
  | downBody value pointer => exact h_view _ (h_enter _ (Session.Answer.accepted.inj h))
  | downHandle value handle pointer => exact h_view _ (h_enter _ (Session.Answer.accepted.inj h))
  | downPan pointer => exact h_view _ (h_enter _ (Session.Answer.accepted.inj h))
  | setContext context =>
    -- and a new context
    refine h_view _ ?_
    have h_refused : (p.session.setContext context).accepted = false :=
      Session.Answer.accepted.inj h
    change (p.session.setContext context).state = p.session
    unfold Session.setContext at h_refused ⊢
    split at h_refused
    · simp at h_refused
    · next h_not => rw [if_neg h_not, Outcome.state_refuse]
  | move | up | cancel | view => cases h

/-! ### Grabbing an overlay -/

/-- The pointer going down is accepted while no gesture is in progress, and only then. -/
theorem answer_down (h : e.isDown = true) :
    p.answer e = .accepted true ↔ p.session.gesture = .idle := by
  -- the three events answer alike, since they only differ in the gesture that they enter
  have h_enter : ∀ gesture : Gesture α γ η,
      (p.session.enter gesture).accepted = true ↔ p.session.gesture = .idle := by
    intro gesture
    unfold Session.enter
    cases h_gesture : p.session.gesture <;> simp [Gesture.isIdle]
  have h_iff : ∀ gesture : Gesture α γ η,
      Session.Answer.accepted (γ := γ) (p.session.enter gesture).accepted = .accepted true ↔
        p.session.gesture = .idle := by
    intro gesture
    rw [Session.Answer.accepted.injEq, h_enter]
  cases e with
  | downBody value pointer => exact h_iff _
  | downHandle value handle pointer => exact h_iff _
  | downPan pointer => exact h_iff _
  | _ => simp [Session.Event.isDown] at h

/-- Grabbing an overlay begins a gesture without a live value, in the context of the moment. -/
theorem next_grip (grip : Grip α γ η) (h : p.session.gesture = .idle) :
    (p.next grip.event).session.gesture = grip.gesture none ∧
      (p.next grip.event).session.context = p.session.context := by
  cases grip <;>
    simp [next, Grip.event, Grip.gesture, Session.step, Session.downBody, Session.downHandle,
      Session.enter, h, Gesture.isIdle]

/-- Grabbing the backdrop begins a pan. -/
theorem next_downPan (h : p.session.gesture = .idle) (pointer : Point .screen α) :
    (p.next (.downPan pointer)).session.gesture = .panning pointer p.viewport.pan := by
  simp [next, Session.step, Session.downPan, Session.enter, h, Gesture.isIdle]

/-! ### Sequences of events -/

/-- **What was grabbed stays grabbed** until it is released, in the context of that time. -/
theorem run_of_grabbed (h : p.session.gesture = grip.gesture live)
    (h_release : ∀ e ∈ events, e.isRelease = false) :
    (∃ live', (p.run events).session.gesture = grip.gesture live') ∧
      (p.run events).session.context = p.session.context := by
  induction events generalizing p live with
  | nil => exact ⟨⟨live, h⟩, rfl⟩
  | cons e rest ih =>
    have h_rest : ∀ e ∈ rest, e.isRelease = false := fun e' he' =>
      h_release e' (List.mem_cons_of_mem e he')
    rw [run_cons]
    by_cases h_move : e.isMove = true
    · -- a move changes the live value, and the induction does not depend on it
      cases e with
      | move pointer =>
        have h_next := next_move h pointer
        obtain ⟨h_live, h_context⟩ := ih (by rw [h_next]) h_rest
        exact ⟨h_live, by rw [h_context, h_next]⟩
      | _ => simp [Session.Event.isMove] at h_move
    · have h_next : (p.next e).session = p.session :=
        next_of_busy (by rw [h]; exact grip.gesture_ne_idle live) (by simpa using h_move)
          (h_release e List.mem_cons_self)
      obtain ⟨h_live, h_context⟩ := ih (by rw [h_next, h]) h_rest
      exact ⟨h_live, by rw [h_context, h_next]⟩

/-- Without moves and releases the session of a gesture stays what it is. -/
theorem run_of_busy (h_busy : p.session.gesture ≠ .idle)
    (h_move : ∀ e ∈ events, e.isMove = false) (h_release : ∀ e ∈ events, e.isRelease = false) :
    (p.run events).session = p.session := by
  induction events generalizing p with
  | nil => rfl
  | cons e rest ih =>
    have h_next : (p.next e).session = p.session :=
      next_of_busy h_busy (h_move e List.mem_cons_self) (h_release e List.mem_cons_self)
    rw [run_cons, ih (by rw [h_next]; exact h_busy)
      (fun e' he' => h_move e' (List.mem_cons_of_mem e he'))
      (fun e' he' => h_release e' (List.mem_cons_of_mem e he')), h_next]

/-- A pan stays a pan until it is released. -/
theorem run_of_panning {start pan : Point .screen α}
    (h : p.session.gesture = .panning start pan)
    (h_release : ∀ e ∈ events, e.isRelease = false) :
    (p.run events).session.gesture = .panning start pan := by
  induction events generalizing p with
  | nil => exact h
  | cons e rest ih =>
    refine ih ?_ fun e' he' => h_release e' (List.mem_cons_of_mem e he')
    -- a move scrolls on, and nothing else reaches a busy session
    by_cases h_move : e.isMove = true
    · cases e with
      | move pointer => rw [next_move_of_panning h, h]
      | _ => simp [Session.Event.isMove] at h_move
    · rw [next_of_busy (by rw [h]; simp) (by simpa using h_move)
        (h_release e List.mem_cons_self), h]

/-- **A gesture in progress has a beginning**: the pointer went down, that was accepted, and it has
not been released since. -/
theorem exists_down (h_idle : p.session.gesture = .idle)
    (h_busy : (p.run events).session.gesture ≠ .idle) :
    ∃ before down during, events = before ++ down :: during ∧ down.isDown = true ∧
      (p.run before).answer down = .accepted true ∧ ∀ e ∈ during, e.isRelease = false := by
  -- the induction takes events off at the end, where the gesture is in progress
  induction events using List.reverseRecOn with
  | nil => exact absurd h_idle h_busy
  | append_singleton events e ih =>
    rw [run_append, run_cons, run_nil] at h_busy
    by_cases h_before : (p.run events).session.gesture = .idle
    · -- the gesture began just now
      have h_down : e.isDown = true := by
        by_contra h_not
        exact h_busy (next_of_idle h_before (by simpa using h_not))
      exact ⟨events, e, [], rfl, h_down, (answer_down h_down).mpr h_before, by simp⟩
    · -- it was in progress before, and the last event has not released it
      have h_last : e.isRelease = false := by
        by_contra h_not
        exact h_busy (next_release (by simpa using h_not))
      obtain ⟨before, down, during, rfl, h_down, h_accepted, h_release⟩ := ih h_before
      refine ⟨before, down, during ++ [e], by simp, h_down, h_accepted, ?_⟩
      intro e' he'
      rcases List.mem_append.mp he' with he' | he'
      · exact h_release e' he'
      · rw [List.mem_singleton.mp he']
        exact h_last

/-- The contexts of a session are the one it was made with and those it was given. -/
theorem context_run_mem (p : Scene C α γ η) (events : List (Session.Event α γ η)) :
    (p.run events).session.context = p.session.context ∨
      .setContext (p.run events).session.context ∈ events := by
  induction events using List.reverseRecOn with
  | nil => exact Or.inl rfl
  | append_singleton events e ih =>
    -- a context is handed on by every event, and replaced by those that give one
    have h_next : ∀ q : Scene C α γ η, (q.next e).session.context = q.session.context ∨
        e = .setContext (q.next e).session.context := by
      intro q
      cases h_gesture : q.session.gesture <;> cases e <;>
        simp [next, Session.step, Session.downBody, Session.downHandle, Session.downPan,
          Session.enter, Session.move, Session.up, Session.cancel, Session.leave,
          Session.setContext, Gesture.isIdle, h_gesture]
    rw [run_append, run_cons, run_nil, List.mem_append, List.mem_singleton]
    rcases h_next (p.run events) with h_same | h_new
    · rw [h_same]
      exact ih.imp_right Or.inl
    · exact Or.inr (Or.inr h_new.symm)

end Scene

end ClipEdit
