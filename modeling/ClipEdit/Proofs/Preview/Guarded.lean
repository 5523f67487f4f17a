import ClipEdit.Preview.Viewport
import ClipEdit.Proofs.Settings.Usable

/-!
# Zooming with a guarded clamp

`clamp` is total, while a program may insist that the range is one: a lower end that is above the
upper one, or an end that is no number, is then a failure and not a result. This module has that
reading of a viewport. A step fails where it would clamp to no range (`EmptyRange`), and a run fails
with its first failing step.

No step changes the limits of the zoom, so a run fails only if the limits were wrong when the
viewport was made (`Under.apply`, `runGuarded_eq`). Which settings are safe is therefore a question
about the settings alone, and usable ones are (`validate_suffices`).
-/

namespace ClipEdit

open Scalar Gauge

/-- Two ends that have no range between them: the lower one is above the upper one, or one of the two
is no number. -/
structure EmptyRange (α : Type) where
  lo : α
  hi : α
deriving Repr, DecidableEq

variable {α : Type} [Scalar α]

/-- `clamp`, for a range only. -/
def clampGuarded (x lo hi : α) : Except (EmptyRange α) α :=
  if lo ≤ hi then .ok (clamp x lo hi) else .error ⟨lo, hi⟩

theorem clampGuarded_eq {x lo hi : α} (h : lo ≤ hi) :
    clampGuarded x lo hi = .ok (clamp x lo hi) := if_pos h

namespace Viewport

/-! ### Guarded steps -/

/-- `zoomAt`, with a guarded clamp. -/
def zoomAtGuarded (v : Viewport α) (anchor : Point .screen α) (factor : α) :
    Except (EmptyRange α) (Viewport α) :=
  if !isFinite factor || factor ≤ 0 then .ok v
  else do
    let anchored := v.toVideo anchor
    let zoomed := { v with zoom := ← clampGuarded (v.zoom * factor) v.minZoom v.maxZoom }
    let scale := zoomed.scale
    let origin := zoomed.centeredOrigin scale
    return { zoomed with
      pan := ⟨anchor.x - origin.x - anchored.x * scale, anchor.y - origin.y - anchored.y * scale⟩ }

/-- The viewport after a step. Only a zoom clamps anything. -/
def applyGuarded (v : Viewport α) : Step α → Except (EmptyRange α) (Viewport α)
  | .zoomAt anchor factor => v.zoomAtGuarded anchor factor
  | .wheel anchor notches => v.zoomAtGuarded anchor (power v.zoomStep notches)
  | step => .ok (v.apply step)

/-- The viewport after a sequence of steps, or the failure of the first one that fails. -/
def runGuarded (v : Viewport α) (steps : List (Step α)) : Except (EmptyRange α) (Viewport α) :=
  steps.foldlM applyGuarded v

section Guards

variable {v : Viewport α}

/-- In a range the guard changes nothing. -/
theorem zoomAtGuarded_eq (h : v.minZoom ≤ v.maxZoom) (anchor : Point .screen α) (factor : α) :
    v.zoomAtGuarded anchor factor = .ok (v.zoomAt anchor factor) := by
  unfold zoomAtGuarded zoomAt
  split
  · rfl
  · rw [clampGuarded_eq h]
    rfl

theorem applyGuarded_eq (h : v.minZoom ≤ v.maxZoom) (step : Step α) :
    v.applyGuarded step = .ok (v.apply step) := by
  cases step with
  | zoomAt anchor factor => exact zoomAtGuarded_eq h anchor factor
  | wheel anchor notches => exact zoomAtGuarded_eq h anchor _
  | _ => rfl

/-- A zoom by a factor that is not ignored shows whether the limits are a range. -/
theorem le_of_zoomAtGuarded {v' : Viewport α} {anchor : Point .screen α} {factor : α}
    (h_factor : (!isFinite factor || factor ≤ 0) = false)
    (h : v.zoomAtGuarded anchor factor = .ok v') : v.minZoom ≤ v.maxZoom := by
  by_contra h_not
  unfold zoomAtGuarded clampGuarded at h
  rw [h_factor, if_neg h_not] at h
  exact absurd h (by simp [bind, Except.bind])

end Guards

/-! ### What a viewport keeps -/

/-- **The limits and the step of a viewport are those of the settings** that it was made under. -/
structure Under (settings : Settings α) (v : Viewport α) : Prop where
  minZoom_eq : v.minZoom = settings.minZoom
  maxZoom_eq : v.maxZoom = settings.maxZoom
  zoomStep_eq : v.zoomStep = settings.zoomStep

namespace Under

variable {settings : Settings α} {v : Viewport α}

theorem fit (settings : Settings α) (video : Size .video α) (container : Size .screen α) :
    (fit settings video container).Under settings := ⟨rfl, rfl, rfl⟩

theorem zoomAt (h : v.Under settings) (anchor : Point .screen α) (factor : α) :
    (v.zoomAt anchor factor).Under settings := by
  unfold Viewport.zoomAt
  split
  · exact h
  · exact { h with }

/-- No step changes the limits. -/
theorem apply (h : v.Under settings) (step : Step α) : (v.apply step).Under settings := by
  cases step with
  | zoomAt anchor factor => exact h.zoomAt anchor factor
  | wheel anchor notches => exact h.zoomAt anchor _
  | _ => exact { h with }

end Under

/-- **A run does not fail** if the limits were a range when the viewport was made. -/
theorem runGuarded_eq {settings : Settings α} {v : Viewport α} (h : v.Under settings)
    (h_limits : settings.minZoom ≤ settings.maxZoom) (steps : List (Step α)) :
    v.runGuarded steps = .ok (v.run steps) := by
  induction steps generalizing v with
  | nil => rfl
  | cons step rest ih =>
    -- the limits are still those of the settings, so this step does not fail
    have h_range : v.minZoom ≤ v.maxZoom := by
      rw [h.minZoom_eq, h.maxZoom_eq]
      exact h_limits
    have h_first : v.runGuarded (step :: rest) = (v.apply step).runGuarded rest := by
      unfold runGuarded
      rw [List.foldlM_cons, applyGuarded_eq h_range]
      rfl
    rw [h_first]
    exact ih (h.apply step)

/-- **Validated settings suffice.** Whatever the settings are, validating them makes them usable,
validating them again changes nothing, and neither does validating settings that are usable already.
The editor works under usable settings only, and no sequence of steps in a viewport that is made
under such settings clamps the zoom to limits that are no range. It is the order of the two limits
that this rests on, and nothing less would do. -/
theorem validate_suffices :
    (∀ s : Settings Float, s.validate.Usable ∧ s.validate.validate = s.validate ∧
        (s.Usable → s.validate = s)) ∧
      (∀ s : Settings Float, s.InForce → s.Usable) ∧
      (∀ s : Settings Float, s.Usable → ∀ video container steps,
        (fit s video container).runGuarded steps = .ok ((fit s video container).run steps)) ∧
      ∀ s : Settings Float, (∀ video container steps,
          ∃ v, (fit s video container).runGuarded steps = .ok v) ↔ s.minZoom ≤ s.maxZoom := by
  refine ⟨?_, fun s h_force => h_force.usable, ?_, fun s => ⟨?_, ?_⟩⟩
  · intro s
    have h_usable := s.validate_usable
    exact ⟨h_usable, h_usable.validate_eq, fun h_given => h_given.validate_eq⟩
  · intro s h_usable video container steps
    exact runGuarded_eq (Under.fit s video container) h_usable.minZoom_le_maxZoom steps
  · -- a zoom by `1` is not ignored, so it looks at the limits
    intro h_all
    obtain ⟨v, h_ok⟩ := h_all ⟨0, 0⟩ ⟨0, 0⟩ [.zoomAt .zero 1.0]
    unfold runGuarded at h_ok
    rw [List.foldlM_cons] at h_ok
    cases h_zoom : applyGuarded (fit s ⟨0, 0⟩ ⟨0, 0⟩) (.zoomAt .zero 1.0) with
    | ok v' => exact le_of_zoomAtGuarded (by decide) h_zoom
    | error range =>
      rw [h_zoom] at h_ok
      exact absurd h_ok (by simp [bind, Except.bind])
  · intro h_limits video container steps
    exact ⟨_, runGuarded_eq (Under.fit s video container) h_limits steps⟩

/-- Settings of which nothing can be used: no numbers, infinities, limits in the wrong order and a
notch of the wheel that leads nowhere. As they are, a zoom under them fails. Validated, they are
usable, and no zoom fails then, whatever its anchor and factor. -/
theorem validate_suffices_of_unusable :
    let s : Settings Float := ⟨0.0 / 0.0, 1.0 / 0.0, .keepLeft, 20.0, 0.5, 1.0⟩
    let fitted := fit s.validate ⟨1920.0, 1080.0⟩ ⟨960.0, 540.0⟩
    let steps : List (Step Float) :=
      [.zoomAt ⟨0.0 / 0.0, 5.0⟩ 1e300, .wheel ⟨1.0 / 0.0, 0.0⟩ (-40), .wheel .zero 9999]
    s.validate = ⟨0.01, 0.03, .keepLeft, 20.0, 20.0, 1.1⟩ ∧ s.validate.Usable ∧
      s.validate.validate = s.validate ∧ (Settings.default : Settings Float).Usable ∧
      (Settings.default : Settings Float).validate = Settings.default ∧ s.validate.InForce ∧
      fitted.runGuarded steps = .ok (fitted.run steps) ∧
      ¬ s.minZoom ≤ s.maxZoom ∧
      ¬ ∀ video container steps, ∃ v, (fit s video container).runGuarded steps = .ok v := by
  intro s fitted steps
  obtain ⟨h_validate, h_force, h_safe, h_iff⟩ := validate_suffices
  -- as they are given, the limits are the wrong way round
  have h_order : ¬ s.minZoom ≤ s.maxZoom := by decide
  have h_usable := h_force _ (.given s)
  have h_default := h_force _ .fresh
  exact ⟨by decide +kernel, h_usable, (h_validate s).2.1, h_default,
    (h_validate Settings.default).2.2 h_default, .given s, h_safe _ h_usable _ _ steps, h_order,
    mt (h_iff s).mp h_order⟩

end Viewport

end ClipEdit
