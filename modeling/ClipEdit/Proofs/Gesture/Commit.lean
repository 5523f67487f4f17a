import ClipEdit.Proofs.Gesture.Events
import ClipEdit.Scalar.Exact
import Mathlib.Data.Rat.Init

/-!
# What a gesture commits

A session keeps a live value and recomputes it at every move. What comes out when the pointer goes up
can be read off the events without following the live values: only the event that grabbed the
overlay and the last move count (`LastMove`).

* `answer_up_iff` — a value is committed exactly if a gesture on the overlay has moved, and it is the
  overlay as it was grabbed, reshaped by the whole way from there to the last move;
* `LastMove.answer_up` — the value depends on nothing else, not even on the session it was made in;
* `exists_reshaped` — so it was reshaped in a context that the session has had;
* `exists_down_of_answer_up` — behind a release there is no commit without another gesture;
* `run_eq_of_refused` — events that were refused might as well not have happened.

`commits_last_move` is the four of them together.
-/

namespace ClipEdit

open Scalar

namespace Scene

variable {C α γ η : Type} [PointerCapture C] [Scalar α] [Reshape α γ η]

/-- **The last move of a gesture in progress**, read off the events that led to it. In the scene
`held` the overlay was grabbed by `grip`, and that was accepted. In the scene `seen` the pointer
moved to a place. It has neither been released since it went down nor moved again. -/
def LastMove (p : Scene C α γ η) (events : List (Session.Event α γ η)) (grip : Grip α γ η)
    (held : Scene C α γ η) (pointer : Point .screen α) (seen : Scene C α γ η) : Prop :=
  ∃ before during rest, events = before ++ grip.event :: (during ++ .move pointer :: rest) ∧
    held = p.run before ∧ held.answer grip.event = .accepted true ∧
    seen = p.run (before ++ grip.event :: during) ∧
    (∀ e ∈ during, e.isRelease = false) ∧ (∀ e ∈ rest, e.isRelease = false) ∧
    ∀ e ∈ rest, e.isMove = false

/-- The overlay that was grabbed in a scene, after the pointer has moved to a place in another
one: the context is that of the first scene, the scale that of the second. -/
def dragged (grip : Grip α γ η) (held : Scene C α γ η) (pointer : Point .screen α)
    (seen : Scene C α γ η) : γ :=
  grip.reshaped held.session.context (seen.viewport.deltaToVideo (pointer - grip.pointer))

variable {p held seen : Scene C α γ η} {events before after : List (Session.Event α γ η)}
  {e : Session.Event α γ η} {grip : Grip α γ η} {pointer : Point .screen α} {frame : Frame}
  {edit : CommittedEdit γ}

/-! ### From the events to the commit -/

/-- **The last move decides what is live.** -/
theorem LastMove.live?_run (h : p.LastMove events grip held pointer seen) :
    (p.run events).session.gesture.live? = some (dragged grip held pointer seen) := by
  obtain ⟨before, during, rest, rfl, rfl, h_accepted, rfl, h_during, h_rest, h_still⟩ := h
  rw [answer_down grip.isDown_event] at h_accepted
  -- what is grabbed stays grabbed up to the last move
  obtain ⟨h_grabbed, h_context⟩ := next_grip grip h_accepted
  obtain ⟨⟨live, h_live⟩, h_context'⟩ := run_of_grabbed h_grabbed h_during
  -- the last move makes the live value, and nothing behind it counts
  have h_move := next_move h_live pointer
  have h_end := run_of_busy (by rw [h_move]; exact grip.gesture_ne_idle _) h_still h_rest
  rw [run_append, run_cons, run_append, run_cons, h_end, h_move, Grip.live?_gesture, h_context',
    h_context, dragged, run_append, run_cons]

theorem LastMove.answer_up (h : p.LastMove events grip held pointer seen) (frame : Frame) :
    (p.run events).answer (.up frame) = .commit (some ⟨frame, dragged grip held pointer seen⟩) := by
  rw [Scene.answer_up, h.live?_run, Option.map_some]

/-! ### From the commit to the events -/

/-- **Whatever is live has a last move.** -/
theorem exists_lastMove {value : γ} (h_idle : p.session.gesture = .idle)
    (h_live : (p.run events).session.gesture.live? = some value) :
    ∃ grip held pointer seen, p.LastMove events grip held pointer seen := by
  have h_busy : (p.run events).session.gesture ≠ .idle := by
    intro h_eq
    rw [h_eq] at h_live
    simp [Gesture.live?] at h_live
  obtain ⟨before, down, during, rfl, h_down, h_accepted, h_release⟩ := exists_down h_idle h_busy
  have h_before := (answer_down h_down).mp h_accepted
  rw [run_append, run_cons] at h_live
  -- the pointer went down on the overlay: a pan has nothing live
  obtain ⟨grip, rfl⟩ : ∃ grip : Grip α γ η, down = grip.event := by
    cases down with
    | downBody value pointer => exact ⟨.drag value pointer, rfl⟩
    | downHandle value handle pointer => exact ⟨.resize value handle pointer, rfl⟩
    | downPan pointer =>
      rw [run_of_panning (next_downPan h_before pointer) h_release] at h_live
      simp [Gesture.live?] at h_live
    | _ => simp [Session.Event.isDown] at h_down
  obtain ⟨h_grabbed, -⟩ := next_grip grip h_before
  -- and it moved, or there would be nothing live either
  have h_moved : ∃ e ∈ during, e.isMove = true := by
    by_contra h_not
    have h_still : ∀ e ∈ during, e.isMove = false := by
      intro e he
      rw [Bool.eq_false_iff]
      exact fun h_move => h_not ⟨e, he, h_move⟩
    rw [run_of_busy (by rw [h_grabbed]; exact grip.gesture_ne_idle none) h_still h_release,
      h_grabbed, Grip.live?_gesture] at h_live
    simp at h_live
  obtain ⟨during, pointer, rest, rfl, h_still⟩ := Session.Event.exists_last_move h_moved
  refine ⟨grip, _, pointer, _, before, during, rest, rfl, rfl, h_accepted, rfl, ?_, ?_, h_still⟩
  · exact fun e he => h_release e (List.mem_append_left _ he)
  · exact fun e he => h_release e (List.mem_append_right _ (List.mem_cons_of_mem _ he))

/-- **A value is committed exactly if a gesture on the overlay has moved**, and then it is what the
last move made of the overlay that was grabbed. -/
theorem answer_up_iff (h_idle : p.session.gesture = .idle) :
    (p.run events).answer (.up frame) = .commit (some edit) ↔
      ∃ grip held pointer seen, p.LastMove events grip held pointer seen ∧
        edit = ⟨frame, dragged grip held pointer seen⟩ := by
  constructor
  · -- what is committed is live, and what is live goes back to a last move
    intro h_commit
    rw [answer_up, Session.Answer.commit.injEq, Option.map_eq_some_iff] at h_commit
    obtain ⟨value, h_live, rfl⟩ := h_commit
    obtain ⟨grip, held, pointer, seen, h_last⟩ := exists_lastMove h_idle h_live
    refine ⟨grip, held, pointer, seen, h_last, ?_⟩
    rw [h_last.live?_run, Option.some.injEq] at h_live
    rw [h_live]
  · rintro ⟨grip, held, pointer, seen, h_last, rfl⟩
    exact h_last.answer_up frame

/-- **What is committed is what was live**, and it was made by reshaping some overlay in one of the
contexts of the session. -/
theorem exists_reshaped (h_idle : p.session.gesture = .idle)
    (h_commit : (p.run events).answer (.up frame) = .commit (some edit)) :
    (p.run events).session.gesture.live? = some edit.value ∧ edit.frame = frame ∧
      ∃ (grip : Grip α γ η) (context : EditContext α) (d : Point .video α),
        edit.value = grip.reshaped context d ∧
          (context = p.session.context ∨ .setContext context ∈ events) := by
  obtain ⟨grip, held, pointer, seen, h_last, rfl⟩ := (answer_up_iff h_idle).mp h_commit
  refine ⟨h_last.live?_run, rfl, grip, held.session.context,
    seen.viewport.deltaToVideo (pointer - grip.pointer), rfl, ?_⟩
  -- the context is that of the moment when the overlay was grabbed
  obtain ⟨before, during, rest, rfl, rfl, -⟩ := h_last
  rcases p.context_run_mem before with h_same | h_given
  · exact Or.inl h_same
  · exact Or.inr (List.mem_append_left _ h_given)

/-! ### Releases and refusals -/

/-- **Behind a release nothing is committed** until the pointer has gone down again. -/
theorem exists_down_of_answer_up (h_release : e.isRelease = true)
    (h_commit : (p.run (before ++ e :: after)).answer (.up frame) = .commit (some edit)) :
    ∃ a down b, after = a ++ down :: b ∧ down.isDown = true ∧
      (p.run (before ++ e :: a)).answer down = .accepted true := by
  have h_idle : ((p.run before).next e).session.gesture = .idle := next_release h_release
  rw [run_append, run_cons, answer_up, Session.Answer.commit.injEq, Option.map_eq_some_iff]
    at h_commit
  obtain ⟨value, h_live, -⟩ := h_commit
  -- the release left the session idle, and something is live again at the end
  have h_busy : (((p.run before).next e).run after).session.gesture ≠ .idle := by
    intro h_eq
    rw [h_eq] at h_live
    simp [Gesture.live?] at h_live
  obtain ⟨a, down, b, rfl, h_down, h_accepted, -⟩ := exists_down h_idle h_busy
  refine ⟨a, down, b, rfl, h_down, ?_⟩
  -- so a gesture was begun in between, and its event was accepted
  rw [run_append, run_cons]
  exact h_accepted

/-- **An event that is refused might as well not have happened.** -/
theorem run_eq_of_refused (h : (p.run before).answer e = .accepted false)
    (after : List (Session.Event α γ η)) :
    p.run (before ++ e :: after) = p.run (before ++ after) := by
  rw [run_append, run_cons, next_of_refused h, run_append]

omit [PointerCapture C] in
/-- The pan of a viewport does not matter for the overlay, and neither does its zoom at any time
but the last move. -/
theorem dragged_congr {held' seen' : Scene C α γ η}
    (h_context : held.session.context = held'.session.context)
    (h_scale : seen.viewport.scale = seen'.viewport.scale) :
    dragged grip held pointer seen = dragged grip held' pointer seen' := by
  rw [dragged, dragged, Viewport.deltaToVideo, Viewport.deltaToVideo, h_context, h_scale]

/-- **A gesture commits its last move, once.** Whatever happens to a new session and its viewport,
letting go of the pointer answers as the events say:

* a value is committed exactly if a gesture on the overlay is in progress and has moved, and it is
  the overlay as it was grabbed, in the context of that time, reshaped by the way from there to the
  last move, on the scale of the viewport at that move;
* after a release, and so after a commit or a cancellation, there is another commit only behind
  another accepted pointer-down;
* refused events make no difference;
* two sessions that agree on the grip, its context, the last move and the scale commit the same. -/
theorem commits_last_move (context : EditContext α) (capture : C) (viewport : Viewport α)
    (events : List (Session.Event α γ η)) :
    (∀ frame edit,
      ((create context capture viewport).run events).answer (.up frame) = .commit (some edit) ↔
        ∃ grip held pointer seen,
          (create context capture viewport).LastMove events grip held pointer seen ∧
            edit = ⟨frame, grip.reshaped held.session.context
              (seen.viewport.deltaToVideo (pointer - grip.pointer))⟩) ∧
      (∀ before e after, events = before ++ e :: after → e.isRelease = true → ∀ frame edit,
        ((create context capture viewport).run events).answer (.up frame) = .commit (some edit) →
          ∃ a down b, after = a ++ down :: b ∧ down.isDown = true ∧
            ((create context capture viewport).run (before ++ e :: a)).answer down
              = .accepted true) ∧
      (∀ before e after, events = before ++ e :: after →
        ((create context capture viewport).run before).answer e = .accepted false →
          (create context capture viewport).run events
            = (create context capture viewport).run (before ++ after)) ∧
      ∀ (context' : EditContext α) (capture' : C) (viewport' : Viewport α)
        (events' : List (Session.Event α γ η)) (grip : Grip α γ η) (pointer : Point .screen α)
        (held held' seen seen' : Scene C α γ η),
        (create context capture viewport).LastMove events grip held pointer seen →
        (create context' capture' viewport').LastMove events' grip held' pointer seen' →
        held.session.context = held'.session.context →
        seen.viewport.scale = seen'.viewport.scale →
        ∀ frame, ((create context capture viewport).run events).answer (.up frame)
          = ((create context' capture' viewport').run events').answer (.up frame) := by
  -- one clause after the other: what is committed, by whom, without what, and on what it depends
  refine ⟨fun frame edit => answer_up_iff rfl, ?_, ?_, ?_⟩
  · rintro before e after rfl h_release frame edit h_commit
    exact exists_down_of_answer_up h_release h_commit
  · rintro before e after rfl h_refused
    exact run_eq_of_refused h_refused after
  · intro context' capture' viewport' events' grip pointer held held' seen seen' h_last h_last'
      h_context h_scale frame
    rw [h_last.answer_up, h_last'.answer_up, dragged_congr h_context h_scale]

/-- After a gesture that is cancelled comes another one. In its course the context is to be replaced
and the viewport is zoomed; it commits the same as a gesture without any of that. -/
theorem commits_last_move_of_second_gesture :
    ∃ (start : Scene Unit ℚ (Crop ℚ) EdgeHandle) (grip : Grip ℚ (Crop ℚ) EdgeHandle)
      (cancelled moved rest : List (Session.Event ℚ (Crop ℚ) EdgeHandle)),
      start = create ⟨⟨1000, 500⟩, .free⟩ () (.fit .default ⟨1000, 500⟩ ⟨500, 250⟩) ∧
      grip = .resize ⟨100, 100, 200, 100⟩ .se ⟨0, 0⟩ ∧
      cancelled = [.downBody ⟨0, 0, 50, 50⟩ ⟨1, 1⟩, .move ⟨9, 9⟩] ∧
      moved = [grip.event, .move ⟨5, 5⟩] ∧
      rest = [.view (.zoomAt ⟨0, 0⟩ 2), .move ⟨40, 20⟩, .view .reset] ∧
      (start.run (cancelled ++ .cancel :: (moved ++ .setContext ⟨⟨10, 10⟩, .free⟩ :: rest))).answer
        (.up 7) = .commit (some ⟨7, ⟨100, 100, 240, 120⟩⟩) ∧
      (∃ a down b, moved ++ .setContext ⟨⟨10, 10⟩, .free⟩ :: rest = a ++ down :: b ∧
        down.isDown = true ∧
        (start.run (cancelled ++ .cancel :: a)).answer down = .accepted true) ∧
      start.run (cancelled ++ .cancel :: (moved ++ .setContext ⟨⟨10, 10⟩, .free⟩ :: rest))
        = start.run (cancelled ++ .cancel :: (moved ++ rest)) ∧
      (start.run (cancelled ++ .cancel :: (moved ++ .setContext ⟨⟨10, 10⟩, .free⟩ :: rest))).answer
        (.up 7) = ((create ⟨⟨1000, 500⟩, .free⟩ () (.fit .default ⟨8, 4⟩ ⟨8, 4⟩)).run
          [grip.event, .move ⟨40, 20⟩]).answer (.up 7) := by
  refine ⟨_, _, _, _, _, rfl, rfl, rfl, rfl, rfl, ?_⟩
  obtain ⟨h_iff, h_release, h_refused, h_same⟩ := commits_last_move (C := Unit) (α := ℚ)
    (γ := Crop ℚ) (η := EdgeHandle) ⟨⟨1000, 500⟩, .free⟩ ()
    (.fit .default ⟨1000, 500⟩ ⟨500, 250⟩)
    [.downBody ⟨0, 0, 50, 50⟩ ⟨1, 1⟩, .move ⟨9, 9⟩, .cancel,
      .downHandle ⟨100, 100, 200, 100⟩ .se ⟨0, 0⟩, .move ⟨5, 5⟩, .setContext ⟨⟨10, 10⟩, .free⟩,
      .view (.zoomAt ⟨0, 0⟩ 2), .move ⟨40, 20⟩, .view .reset]
  -- the last move of the second gesture, with what stands in front of it and behind it
  have h_last : (create ⟨⟨1000, 500⟩, .free⟩ () (.fit .default ⟨1000, 500⟩ ⟨500, 250⟩) :
      Scene Unit ℚ (Crop ℚ) EdgeHandle).LastMove _ (.resize ⟨100, 100, 200, 100⟩ .se ⟨0, 0⟩) _
      ⟨40, 20⟩ _ :=
    ⟨[.downBody ⟨0, 0, 50, 50⟩ ⟨1, 1⟩, .move ⟨9, 9⟩, .cancel],
      [.move ⟨5, 5⟩, .setContext ⟨⟨10, 10⟩, .free⟩, .view (.zoomAt ⟨0, 0⟩ 2)], [.view .reset],
      rfl, rfl, by decide +kernel, rfl, by decide, by decide, by decide⟩
  have h_commit := (h_iff 7 ⟨7, ⟨100, 100, 240, 120⟩⟩).mpr ⟨_, _, _, _, h_last, by decide +kernel⟩
  refine ⟨h_commit, h_release _ _ _ rfl rfl 7 _ h_commit, ?_, ?_⟩
  · -- a context that comes while the gesture is on is refused
    exact h_refused [.downBody ⟨0, 0, 50, 50⟩ ⟨1, 1⟩, .move ⟨9, 9⟩, .cancel,
      .downHandle ⟨100, 100, 200, 100⟩ .se ⟨0, 0⟩, .move ⟨5, 5⟩] _ _ rfl (by decide +kernel)
  · -- the same drag without detours, in another viewport of the same scale
    exact h_same ⟨⟨1000, 500⟩, .free⟩ () (.fit .default ⟨8, 4⟩ ⟨8, 4⟩) _ _ _ _ _ _ _ h_last
      ⟨[], [], [], rfl, rfl, by decide +kernel, rfl, by decide, by decide, by decide⟩
      (by decide +kernel) (by decide +kernel) 7

end Scene

end ClipEdit
