import ClipEdit.Proofs.Gesture.Events
import ClipEdit.Scalar.Exact
import Mathlib.Data.List.Chain

/-!
# The host is attached for as long as a gesture lasts

A host that stays attached after a gesture goes on following a pointer that nobody drags, and one
that is attached twice is not rid of it by one release. So the calls to the host have to pair up with
the gestures, whatever order the events come in: releases without a gesture, a pointer that goes down
twice, a gesture that is lost before the pointer has moved.

`Paired` is the language of the calls that do: attach, detach, attach, and so on. What a call to the
host does is up to the host, so the calls are read off a session on behalf of a `CaptureLog`, which
keeps them. This loses nothing: `step_onto` says that a session on behalf of any other host does the
same, and that its host is what the calls in the log make of it.

* `after_cases` — one event begins a gesture and attaches, ends one and detaches, or does neither;
* `paired_run` — so the calls of a session pair up, and there are as many of the first kind as
  gestures that were begun;
* `capture_paired` — the same for every host.
-/

namespace ClipEdit

/-! ### Calls that pair up -/

namespace CaptureCall

/-- What a call does to a host. -/
def perform {C : Type} [PointerCapture C] (host : C) : CaptureCall → C
  | attach => PointerCapture.attach host
  | detach => PointerCapture.detach host

/-- **Calls that pair up**, from the first one on. The flag says that the host is detached after
them. -/
inductive Paired : Bool → List CaptureCall → Prop
  | nil : Paired true []
  | attach {calls : List CaptureCall} (h : Paired true calls) : Paired false (calls ++ [.attach])
  | detach {calls : List CaptureCall} (h : Paired false calls) : Paired true (calls ++ [.detach])

namespace Paired

variable {idle : Bool} {calls : List CaptureCall}

theorem count_sub_count (h : Paired idle calls) :
    (calls.count .attach : ℤ) - calls.count .detach = if idle then 0 else 1 := by
  induction h with
  | nil => rfl
  | attach h ih =>
    -- attached from the idle state only, so the counts were equal before
    rw [if_pos rfl] at ih
    rw [List.count_append, List.count_append, if_neg Bool.false_ne_true]
    simp
    omega
  | detach h ih =>
    -- and detached from a busy one, one call ahead
    rw [if_neg Bool.false_ne_true] at ih
    rw [List.count_append, List.count_append, if_pos rfl]
    simp
    omega

/-- The last call is the one that the flag remembers. -/
theorem getLast?_eq (h : Paired idle calls) :
    ∀ call ∈ calls.getLast?, call = if idle then .detach else .attach := by
  cases h with
  | nil => simp
  | attach h | detach h => simp

/-- **They alternate.** -/
theorem isChain_ne (h : Paired idle calls) : calls.IsChain (· ≠ ·) := by
  induction h with
  | nil => exact .nil
  | attach h ih | detach h ih =>
    refine List.isChain_append.mpr ⟨ih, .singleton _, ?_⟩
    intro last h_last call h_call
    obtain rfl := Option.some.inj h_call
    rw [h.getLast?_eq last h_last]
    simp

/-- The first of them is to attach. -/
theorem head?_ne (h : Paired idle calls) : calls.head? ≠ some .detach := by
  induction h with
  | nil => simp
  | @attach calls h ih =>
    cases calls with
    | nil => simp
    | cons call rest => exact ih
  | @detach calls h ih =>
    cases calls with
    | nil =>
      -- without a call the host is detached
      simpa using h.count_sub_count
    | cons call rest => exact ih

end Paired

end CaptureCall

namespace Session

variable {C α γ η : Type} [PointerCapture C]

/-! ### The two places that call the host -/

/-- The pointer going down begins a gesture and attaches, or is refused. -/
theorem enter_cases (s : Session C α γ η) {gesture : Gesture α γ η}
    (h_gesture : gesture.isIdle = false) :
    ((s.enter gesture).accepted = true ∧ s.gesture.isIdle = true ∧
        (s.enter gesture).state.gesture.isIdle = false ∧
        (s.enter gesture).state.capture = PointerCapture.attach s.capture) ∨
      ((s.enter gesture).accepted = false ∧
        (s.enter gesture).state.gesture.isIdle = s.gesture.isIdle ∧
        (s.enter gesture).state.capture = s.capture) := by
  cases h : s.gesture.isIdle with
  | true =>
    rw [enter_of_idle h]
    exact Or.inl ⟨rfl, rfl, h_gesture, rfl⟩
  | false =>
    -- refused, so neither the gesture nor the host is touched
    rw [enter_of_busy h]
    exact Or.inr ⟨rfl, h, rfl⟩

/-- A release ends a gesture and detaches, or there is nothing to end. -/
theorem leave_cases (s : Session C α γ η) :
    (s.gesture.isIdle = false ∧ s.leave.gesture.isIdle = true ∧
        s.leave.capture = PointerCapture.detach s.capture) ∨
      (s.leave.gesture.isIdle = s.gesture.isIdle ∧ s.leave.capture = s.capture) := by
  cases h : s.gesture.isIdle with
  | true =>
    rw [leave_of_idle h]
    exact Or.inr ⟨h, rfl⟩
  | false =>
    rw [leave_of_busy h]
    exact Or.inl ⟨rfl, rfl, rfl⟩

/-! ### One host for another -/

/-- The session on behalf of a host instead of a log: the host has been told what is in the log. -/
def onto (s : Session CaptureLog α γ η) (host : C) : Session C α γ η :=
  ⟨s.gesture, s.context, s.capture.calls.foldl CaptureCall.perform host⟩

theorem enter_onto (s : Session CaptureLog α γ η) (host : C) (gesture : Gesture α γ η) :
    (s.onto host).enter gesture = (s.enter gesture).map fun s => s.onto host := by
  cases h : s.gesture.isIdle with
  | true =>
    have h_call : (s.capture.calls ++ [CaptureCall.attach]).foldl CaptureCall.perform host =
        PointerCapture.attach (s.onto host).capture :=
      List.foldl_concat _ _ _ _
    rw [enter_of_idle h, enter_of_idle (s := s.onto host) h, ← h_call]
    rfl
  | false =>
    rw [enter_of_busy h, enter_of_busy (s := s.onto host) h]
    rfl

theorem leave_onto (s : Session CaptureLog α γ η) (host : C) :
    (s.onto host).leave = s.leave.onto host := by
  cases h : s.gesture.isIdle with
  | true => rw [leave_of_idle h, leave_of_idle (s := s.onto host) h]
  | false =>
    have h_call : (s.capture.calls ++ [CaptureCall.detach]).foldl CaptureCall.perform host =
        PointerCapture.detach (s.onto host).capture :=
      List.foldl_concat _ _ _ _
    rw [leave_of_busy h, leave_of_busy (s := s.onto host) h, ← h_call]
    rfl

variable [Scalar α] [Reshape α γ η]

/-- **Sessions do not look at their host**: what an event does, and what it answers, is the same for
every host. -/
theorem step_onto (s : Session CaptureLog α γ η) (host : C) (viewport : Viewport α)
    (e : Event α γ η) :
    (s.onto host).step viewport e =
      ((s.step viewport e).1.onto host, (s.step viewport e).2) := by
  cases e with
  -- a step that enters or leaves a gesture reaches the host there and nowhere else
  | downBody value pointer =>
    simp only [step, downBody, enter_onto]
    rfl
  | downHandle value handle pointer =>
    simp only [step, downHandle, enter_onto]
    rfl
  | downPan pointer =>
    simp only [step, downPan, enter_onto]
    rfl
  -- all others depend on the gesture only
  | move pointer =>
    obtain ⟨gesture, context, log⟩ := s
    cases gesture <;> rfl
  | up frame =>
    simp only [step, up, leave_onto]
    rfl
  | cancel => simp only [step, cancel, leave_onto]
  | setContext context =>
    obtain ⟨gesture, context, log⟩ := s
    cases gesture <;> rfl
  | view step => rfl

/-! ### Sequences of events -/

/-- An event with the viewport that it happens over. The viewport does not belong to the session, so
it may be another one every time. -/
structure Input (α γ η : Type) where
  viewport : Viewport α
  event : Event α γ η

/-- The session after an event. -/
def after (s : Session C α γ η) (input : Input α γ η) : Session C α γ η :=
  (s.step input.viewport input.event).1

/-- What the event answers. -/
def answerTo (s : Session C α γ η) (input : Input α γ η) : Answer γ :=
  (s.step input.viewport input.event).2.2

/-- The session after a sequence of events. -/
def run (s : Session C α γ η) (inputs : List (Input α γ η)) : Session C α γ η :=
  inputs.foldl after s

/-- Does the event begin a gesture? The pointer goes down, and that is accepted. -/
def begins (s : Session C α γ η) (input : Input α γ η) : Bool :=
  input.event.isDown &&
    match s.answerTo input with
    | .accepted yes => yes
    | _ => false

/-- How many gestures a sequence of events begins. -/
def begun (s : Session C α γ η) : List (Input α γ η) → Nat
  | [] => 0
  | input :: rest => (s.begins input).toNat + (s.after input).begun rest

theorem after_onto (s : Session CaptureLog α γ η) (host : C) (input : Input α γ η) :
    (s.onto host).after input = (s.after input).onto host := by
  rw [after, step_onto]
  rfl

theorem begins_onto (s : Session CaptureLog α γ η) (host : C) (input : Input α γ η) :
    (s.onto host).begins input = s.begins input := by
  rw [begins, answerTo, step_onto]
  rfl

theorem run_onto (s : Session CaptureLog α γ η) (host : C) (inputs : List (Input α γ η)) :
    (s.onto host).run inputs = (s.run inputs).onto host := by
  induction inputs generalizing s with
  | nil => rfl
  | cons input rest ih =>
    change ((s.onto host).after input).run rest = ((s.after input).run rest).onto host
    rw [after_onto, ih]

theorem begun_onto (s : Session CaptureLog α γ η) (host : C) (inputs : List (Input α γ η)) :
    (s.onto host).begun inputs = s.begun inputs := by
  induction inputs generalizing s with
  | nil => rfl
  | cons input rest ih => rw [begun, begun, begins_onto, after_onto, ih]

/-! ### Calls and gestures -/

/-- **What one event does to the gesture and the host**: it begins a gesture and attaches, it ends
one and detaches, or it leaves the host alone and there is a gesture afterwards if there was one
before. -/
theorem after_cases (s : Session C α γ η) (input : Input α γ η) :
    (s.begins input = true ∧ s.gesture.isIdle = true ∧ (s.after input).gesture.isIdle = false ∧
        (s.after input).capture = PointerCapture.attach s.capture) ∨
      (s.begins input = false ∧ s.gesture.isIdle = false ∧
        (s.after input).gesture.isIdle = true ∧
        (s.after input).capture = PointerCapture.detach s.capture) ∨
      (s.begins input = false ∧ (s.after input).gesture.isIdle = s.gesture.isIdle ∧
        (s.after input).capture = s.capture) := by
  obtain ⟨viewport, e⟩ := input
  cases e with
  | downBody value pointer => exact (s.enter_cases rfl).imp_right Or.inr
  | downHandle value handle pointer => exact (s.enter_cases rfl).imp_right Or.inr
  | downPan pointer => exact (s.enter_cases rfl).imp_right Or.inr
  | up frame => exact Or.inr (s.leave_cases.imp (And.intro rfl) (And.intro rfl))
  | cancel => exact Or.inr (s.leave_cases.imp (And.intro rfl) (And.intro rfl))
  -- no other event calls the host
  | move pointer =>
    obtain ⟨gesture, context, host⟩ := s
    cases gesture <;> exact Or.inr (Or.inr ⟨rfl, rfl, rfl⟩)
  | setContext context =>
    obtain ⟨gesture, context, host⟩ := s
    cases gesture <;> exact Or.inr (Or.inr ⟨rfl, rfl, rfl⟩)
  | view step => exact Or.inr (Or.inr ⟨rfl, rfl, rfl⟩)

/-! ### Whole sessions -/

/-- An event leaves the calls paired, and adds one to attach if it begins a gesture. -/
theorem paired_after {s : Session CaptureLog α γ η}
    (h : CaptureCall.Paired s.gesture.isIdle s.capture.calls) (input : Input α γ η) :
    CaptureCall.Paired (s.after input).gesture.isIdle (s.after input).capture.calls ∧
      (s.after input).capture.calls.count .attach =
        s.capture.calls.count .attach + (s.begins input).toNat := by
  rcases s.after_cases input with ⟨h_begins, h_idle, h_busy, h_capture⟩
    | ⟨h_begins, h_busy, h_idle, h_capture⟩ | ⟨h_begins, h_same, h_capture⟩
  · -- a gesture begins
    have h_calls : (s.after input).capture.calls = s.capture.calls ++ [.attach] := by
      rw [h_capture]
      rfl
    rw [h_idle] at h
    rw [h_busy, h_calls, h_begins, List.count_append]
    exact ⟨h.attach, rfl⟩
  · -- a gesture ends
    have h_calls : (s.after input).capture.calls = s.capture.calls ++ [.detach] := by
      rw [h_capture]
      rfl
    rw [h_busy] at h
    rw [h_idle, h_calls, h_begins, List.count_append]
    exact ⟨h.detach, rfl⟩
  · -- neither, and no call is made
    rw [h_same, h_capture, h_begins]
    exact ⟨h, rfl⟩

/-- **The calls of a session pair up**, and there is one to attach for every gesture that was
begun. -/
theorem paired_run {s : Session CaptureLog α γ η}
    (h : CaptureCall.Paired s.gesture.isIdle s.capture.calls) (inputs : List (Input α γ η)) :
    CaptureCall.Paired (s.run inputs).gesture.isIdle (s.run inputs).capture.calls ∧
      (s.run inputs).capture.calls.count .attach =
        s.capture.calls.count .attach + s.begun inputs := by
  induction inputs generalizing s with
  | nil => exact ⟨h, rfl⟩
  | cons input rest ih =>
    obtain ⟨h_after, h_one⟩ := paired_after h input
    obtain ⟨h_paired, h_rest⟩ := ih h_after
    refine ⟨h_paired, ?_⟩
    rw [begun, ← Nat.add_assoc, ← h_one]
    exact h_rest

/-- **The host is attached exactly while a gesture is in progress.** At every moment of a session,
whatever events have come before, its host is what a sequence of calls has made of it, and these
calls alternate, beginning with one to attach. There is one more to attach than to detach during a
gesture and equally many of both outside of one, and every gesture that was begun has attached the
host once. -/
theorem capture_paired (context : EditContext α) (host : C) (inputs : List (Input α γ η)) :
    let s := (create context host : Session C α γ η).run inputs
    let calls := ((create context ⟨[]⟩ : Session CaptureLog α γ η).run inputs).capture.calls
    s.capture = calls.foldl CaptureCall.perform host ∧
      (calls.count .attach : ℤ) - calls.count .detach = (if s.gesture.isIdle then 0 else 1) ∧
      calls.IsChain (· ≠ ·) ∧ calls.head? ≠ some .detach ∧
      calls.count .attach = (create context host : Session C α γ η).begun inputs := by
  intro s calls
  -- both sessions begin alike, so they end alike
  have h_create : (create context ⟨[]⟩ : Session CaptureLog α γ η).onto host =
      create context host := rfl
  have h_run : s = ((create context ⟨[]⟩ : Session CaptureLog α γ η).run inputs).onto host := by
    rw [← run_onto, h_create]
  obtain ⟨h_paired, h_count⟩ :=
    paired_run (s := (create context ⟨[]⟩ : Session CaptureLog α γ η)) .nil inputs
  rw [← begun_onto _ host, h_create] at h_count
  refine ⟨by rw [h_run]; rfl, ?_, h_paired.isChain_ne, h_paired.head?_ne, ?_⟩
  · rw [h_run]
    exact h_paired.count_sub_count
  · rw [h_count]
    exact Nat.zero_add _

/-- Two gestures, one of them lost; the pointer going down during the second is refused, and the
releases after it find nothing to end. -/
example :
    let viewport : Viewport Rat := ⟨⟨1000, 500⟩, ⟨1000, 500⟩, 1, ⟨0, 0⟩, 1, 4, 2⟩
    let rect : Crop Rat := ⟨0, 0, 100, 100⟩
    ((create ⟨⟨1000, 500⟩, .free⟩ ⟨0, 0⟩ : Session CaptureCount Rat (Crop Rat) EdgeHandle).run
      [⟨viewport, .downBody rect ⟨0, 0⟩⟩, ⟨viewport, .move ⟨5, 5⟩⟩, ⟨viewport, .up 0⟩,
        ⟨viewport, .downHandle rect .e ⟨0, 0⟩⟩, ⟨viewport, .downBody rect ⟨0, 0⟩⟩,
        ⟨viewport, .cancel⟩, ⟨viewport, .cancel⟩, ⟨viewport, .up 0⟩]).capture = ⟨2, 2⟩ := by
  decide

end Session

end ClipEdit
