import ClipEdit.Preview.Viewport
import ClipEdit.Proofs.Scalar.Milli
import ClipEdit.Proofs.Settings.Usable

/-!
# Viewports and the limits of their zoom

A viewport is made by `Viewport.fit` under settings that were validated, and then changes by steps
only. What a step can do is said once (`change_apply`): it shifts the video, sets the zoom back to
`1`, multiplies it by a positive factor as far as the limits allow, or changes the container.

`Sound` is the invariant of all viewports in which the video and the container have an extent: the
limits make sense, a notch of the wheel zooms in, and the zoom is positive. `Reachable.sound` says
that steps keep it.

Whether the zoom is *inside* its limits is another matter. Of the three places that set the zoom
only `zoomAt` looks at them; a viewport that has just been made, or was just reset, shows the whole
video at zoom `1`, whatever the limits are. `zoom_inLimits_iff` says what is left: every zoom that
is carried out ends inside the limits, and all viewports stay inside exactly if `1` does.

Everything here is about exact arithmetic.
-/

namespace ClipEdit

open Scalar Exact

/-! ### Clamping -/

/-- On rational numbers the two ways to clamp are the same. -/
theorem Exact.clamp_eq_within (x lo hi : ℚ) : clamp x lo hi = within x lo hi := by
  unfold clamp within atLeast atMost
  simp

/-! ### Settings -/

namespace Settings

/-- The limits that validated settings set to the zoom. -/
theorem zoom_validate (s : Settings ℚ) :
    0 < s.validate.minZoom ∧ s.validate.minZoom ≤ s.validate.maxZoom :=
  ⟨s.validate_usable_exact.minZoom.2, s.validate_usable_exact.minZoom_le_maxZoom⟩

/-- A notch of the wheel zooms in. -/
theorem one_lt_zoomStep_validate (s : Settings ℚ) : 1 < s.validate.zoomStep := by
  have h_one : (1.0 : ℚ) = 1 := by norm_num
  rw [← h_one]
  exact s.validate_usable_exact.zoomStep.2

end Settings

/-- A size with an extent in both directions. -/
structure Size.Positive {plane : Plane} (s : Size plane ℚ) : Prop where
  width : 0 < s.width
  height : 0 < s.height

namespace Viewport

variable {v v' : Viewport ℚ} {settings : Settings ℚ} {video : Size .video ℚ}
  {container : Size .screen ℚ} {anchor : Point .screen ℚ} {factor : ℚ} {step : Step ℚ}

/-! ### What a step can do -/

/-- The zoom that a factor leads to, as far as the limits allow. -/
def zoomedTo (v : Viewport ℚ) (factor : ℚ) : ℚ := clamp (v.zoom * factor) v.minZoom v.maxZoom

/-- A zoom stays inside limits that make sense. -/
theorem zoomedTo_mem (h_limits : v.minZoom ≤ v.maxZoom) (factor : ℚ) :
    v.minZoom ≤ v.zoomedTo factor ∧ v.zoomedTo factor ≤ v.maxZoom := by
  unfold zoomedTo
  rw [clamp_eq_within]
  exact ⟨le_within h_limits _, within_le _ _ _⟩

/-- The pan that brings a point of the video under an anchor, at a scale. -/
def panUnder (v : Viewport ℚ) (anchor : Point .screen ℚ) (p : Point .video ℚ) (scale : ℚ) :
    Point .screen ℚ :=
  ⟨anchor.x - (v.centeredOrigin scale).x - p.x * scale,
    anchor.y - (v.centeredOrigin scale).y - p.y * scale⟩

/-- A factor that is not positive is ignored. -/
theorem zoomAt_of_nonpos (h : factor ≤ 0) (anchor : Point .screen ℚ) :
    v.zoomAt anchor factor = v := by
  unfold zoomAt
  rw [if_pos (by simp [h])]

/-- **A positive factor** sets the zoom, and the pan that brings the point which was under the
anchor back there. -/
theorem zoomAt_of_pos (h : 0 < factor) (anchor : Point .screen ℚ) :
    v.zoomAt anchor factor = { v with
      zoom := v.zoomedTo factor
      pan := v.panUnder anchor (v.toVideo anchor) (v.fitScale * v.zoomedTo factor) } := by
  unfold zoomAt
  have h_fin : isFinite factor = true := rfl
  rw [if_neg (by simp [h_fin, h])]
  rfl

/-- **What a step can do to a viewport.** The zoom is set in two of the cases, and only one of them
looks at the limits. -/
inductive Change (v : Viewport ℚ) : Step ℚ → Viewport ℚ → Prop
  | ignore (step : Step ℚ) : Change v step v
  | shift (step : Step ℚ) (pan : Point .screen ℚ) : Change v step { v with pan }
  | zoom (step : Step ℚ) (anchor : Point .screen ℚ) {factor : ℚ} (h_pos : 0 < factor) :
      Change v step { v with
        zoom := v.zoomedTo factor
        pan := v.panUnder anchor (v.toVideo anchor) (v.fitScale * v.zoomedTo factor) }
  | reset : Change v .reset { v with zoom := 1, pan := .zero }
  | resize (container : Size .screen ℚ) :
      Change v (.resizeContainer container) { v with container }

/-- **Every step is a change.** -/
theorem change_apply (v : Viewport ℚ) (step : Step ℚ) : Change v step (v.apply step) := by
  -- a notch of the wheel is a zoom by some factor
  have h_zoomAt : ∀ anchor factor, Change v step (v.zoomAt anchor factor) := by
    intro anchor factor
    rcases le_or_gt factor 0 with h_nonpos | h_pos
    · rw [zoomAt_of_nonpos h_nonpos]
      exact .ignore step
    · rw [zoomAt_of_pos h_pos]
      exact .zoom step anchor h_pos
  cases step with
  | zoomAt anchor factor => exact h_zoomAt anchor factor
  | wheel anchor notches => exact h_zoomAt anchor _
  | panBy d => exact .shift _ _
  | setPan pan => exact .shift _ pan
  | reset =>
    have h_one : (1.0 : ℚ) = 1 := by norm_num
    show Change v .reset { v with zoom := 1.0, pan := .zero }
    rw [h_one]
    exact .reset
  | resizeContainer container => exact .resize container

/-- A property that every change preserves is one of whole runs. -/
theorem run_induction {P : Viewport ℚ → Prop} {steps : List (Step ℚ)} (h : P v)
    (h_change : ∀ step ∈ steps, ∀ {v v'}, P v → Change v step v' → P v') : P (v.run steps) := by
  induction steps generalizing v with
  | nil => exact h
  | cons step rest ih =>
    have h_first : P (v.apply step) := h_change step List.mem_cons_self h (v.change_apply step)
    exact ih h_first fun step' h_mem => h_change step' (List.mem_cons_of_mem step h_mem)

/-! ### Reachable viewports -/

/-- A step that leaves the video in a container with an extent. -/
def Step.Proper : Step ℚ → Prop
  | .resizeContainer container => container.Positive
  | _ => True

/-- **A reachable viewport**: one that steps lead to from a video as it is fitted into a container
under validated settings. The video and all containers have an extent. -/
def Reachable (v : Viewport ℚ) : Prop :=
  ∃ (settings : Settings ℚ) (video : Size .video ℚ) (container : Size .screen ℚ)
    (steps : List (Step ℚ)), video.Positive ∧ container.Positive ∧
      (∀ step ∈ steps, step.Proper) ∧ (fit settings.validate video container).run steps = v

/-- **A sound viewport**: the video and the container have an extent, the limits of the zoom make
sense, a notch of the wheel zooms in, and the zoom is positive. -/
structure Sound (v : Viewport ℚ) : Prop where
  video : v.video.Positive
  container : v.container.Positive
  zero_lt_minZoom : 0 < v.minZoom
  minZoom_le_maxZoom : v.minZoom ≤ v.maxZoom
  one_lt_zoomStep : 1 < v.zoomStep
  zero_lt_zoom : 0 < v.zoom

namespace Sound

theorem fit (settings : Settings ℚ) (h_video : video.Positive) (h_container : container.Positive) :
    (fit settings.validate video container).Sound where
  video := h_video
  container := h_container
  zero_lt_minZoom := settings.zoom_validate.1
  minZoom_le_maxZoom := settings.zoom_validate.2
  one_lt_zoomStep := settings.one_lt_zoomStep_validate
  zero_lt_zoom := by
    show (0 : ℚ) < 1.0
    norm_num

/-- **A change keeps a viewport sound.** -/
theorem change (h : v.Sound) (h_step : step.Proper) (h_change : Change v step v') : v'.Sound := by
  cases h_change with
  | ignore => exact h
  | shift => exact { h with }
  | @zoom _ anchor factor h_pos =>
    -- the limits are positive, so a zoom inside of them is
    have h_mem := v.zoomedTo_mem h.minZoom_le_maxZoom factor
    exact { h with zero_lt_zoom := h.zero_lt_minZoom.trans_le h_mem.1 }
  | reset => exact { h with zero_lt_zoom := zero_lt_one }
  | resize container => exact { h with container := h_step }

end Sound

/-- **Reachable viewports are sound.** -/
theorem Reachable.sound (h : v.Reachable) : v.Sound := by
  obtain ⟨settings, video, container, steps, h_video, h_container, h_steps, rfl⟩ := h
  exact run_induction (.fit settings h_video h_container)
    fun step h_mem {_ _} h_sound => h_sound.change (h_steps step h_mem)

/-! ### Inside the limits -/

/-- Is the zoom inside the limits of the settings? -/
def InLimits (settings : Settings ℚ) (v : Viewport ℚ) : Prop :=
  settings.minZoom ≤ v.zoom ∧ v.zoom ≤ settings.maxZoom

/-- **What is known of every zoom**: the limits are those of the settings, and the zoom is inside of
them unless it is `1`. -/
structure Limited (settings : Settings ℚ) (v : Viewport ℚ) : Prop where
  minZoom_eq : v.minZoom = settings.minZoom
  maxZoom_eq : v.maxZoom = settings.maxZoom
  zoom : v.zoom = 1 ∨ v.InLimits settings

namespace Limited

theorem fit (settings : Settings ℚ) (video : Size .video ℚ) (container : Size .screen ℚ) :
    (fit settings video container).Limited settings where
  minZoom_eq := rfl
  maxZoom_eq := rfl
  zoom := by
    refine Or.inl ?_
    show (1.0 : ℚ) = 1
    norm_num

/-- A zoom ends inside the limits. -/
theorem inLimits_zoomedTo (h : v.Limited settings) (h_limits : settings.minZoom ≤ settings.maxZoom)
    (factor : ℚ) : settings.minZoom ≤ v.zoomedTo factor ∧ v.zoomedTo factor ≤ settings.maxZoom := by
  rw [← h.minZoom_eq, ← h.maxZoom_eq] at h_limits ⊢
  exact v.zoomedTo_mem h_limits factor

theorem change (h : v.Limited settings) (h_limits : settings.minZoom ≤ settings.maxZoom)
    (h_change : Change v step v') : v'.Limited settings := by
  cases h_change with
  | ignore => exact h
  | shift => exact { h with }
  | zoom => exact { h with zoom := Or.inr (h.inLimits_zoomedTo h_limits _) }
  | reset => exact { h with zoom := Or.inl rfl }
  | resize => exact { h with }

theorem run (h : v.Limited settings) (h_limits : settings.minZoom ≤ settings.maxZoom)
    (steps : List (Step ℚ)) : (v.run steps).Limited settings :=
  run_induction h fun _ _ {_ _} h_limited => h_limited.change h_limits

end Limited

/-- **When the zoom is inside its limits.** Whatever is done to a viewport, its zoom is `1` or
inside the limits; it is inside after every zoom that is carried out, also if the limits cut the
factor short. So the zoom stays inside for good exactly if the limits have `1` between them, the
zoom at which a video is fitted and to which it is reset. -/
theorem zoom_inLimits_iff (settings : Settings ℚ) (video : Size .video ℚ)
    (container : Size .screen ℚ) :
    (∀ steps, ((fit settings.validate video container).run steps).zoom = 1 ∨
        ((fit settings.validate video container).run steps).InLimits settings.validate) ∧
      (∀ steps anchor factor, 0 < factor →
        (((fit settings.validate video container).run steps).zoomAt anchor factor).InLimits
          settings.validate) ∧
      ((∀ steps, ((fit settings.validate video container).run steps).InLimits settings.validate) ↔
        settings.validate.minZoom ≤ 1 ∧ 1 ≤ settings.validate.maxZoom) := by
  have h_limits := settings.zoom_validate.2
  have h_run : ∀ steps, ((fit settings.validate video container).run steps).Limited
      settings.validate := fun steps => (Limited.fit _ video container).run h_limits steps
  refine ⟨fun steps => (h_run steps).zoom, ?_, ?_, ?_⟩
  · intro steps anchor factor h_pos
    rw [zoomAt_of_pos h_pos]
    exact (h_run steps).inLimits_zoomedTo h_limits factor
  · -- a viewport that nothing was done to has zoom `1`
    intro h_all
    have h_one : (1.0 : ℚ) = 1 := by norm_num
    have h_fit : settings.validate.minZoom ≤ 1.0 ∧ (1.0 : ℚ) ≤ settings.validate.maxZoom := h_all []
    rwa [h_one] at h_fit
  · intro h_one steps
    rcases (h_run steps).zoom with h_eq | h_in
    · unfold InLimits
      rw [h_eq]
      exact h_one
    · exact h_in

/-- Limits from 2 to 5: a zoom by 100 is cut down to 5, and one by a thousandth is raised to 2. -/
theorem zoom_inLimits_iff_of_two_to_five :
    let settings : Settings ℚ := { Settings.default with minZoom := 2, maxZoom := 5 }
    let v := (fit settings.validate ⟨100, 100⟩ ⟨100, 100⟩).run [.zoomAt ⟨50, 50⟩ 100]
    v.zoom = 5 ∧ (0 : ℚ) < 1 / 1000 ∧ (v.zoomAt ⟨50, 50⟩ (1 / 1000)).zoom = 2 ∧
      (v.zoomAt ⟨50, 50⟩ (1 / 1000)).InLimits settings.validate := by
  intro settings v
  have h_pos : (0 : ℚ) < 1 / 1000 := by norm_num
  exact ⟨by decide +kernel, h_pos, by decide +kernel,
    (zoom_inLimits_iff settings ⟨100, 100⟩ ⟨100, 100⟩).2.1 _ ⟨50, 50⟩ (1 / 1000) h_pos⟩

/-- Under the same limits a video that has just been fitted is shown at zoom 1, below the lower one,
and so it is again when it is reset. -/
theorem fit_not_inLimits :
    let settings : Settings ℚ := { Settings.default with minZoom := 2, maxZoom := 5 }
    let v := fit settings.validate ⟨100, 100⟩ ⟨100, 100⟩
    settings.validate = settings ∧ v.Reachable ∧ ¬ v.InLimits settings.validate ∧
      ¬ (v.run [.zoomAt ⟨50, 50⟩ 3, .reset]).InLimits settings.validate := by
  intro settings v
  have h_video : (⟨100, 100⟩ : Size .video ℚ).Positive := ⟨by norm_num, by norm_num⟩
  have h_container : (⟨100, 100⟩ : Size .screen ℚ).Positive := ⟨by norm_num, by norm_num⟩
  -- neither making a viewport nor a reset looks at the limits
  refine ⟨by decide +kernel, ?_, ?_, ?_⟩
  · exact ⟨settings, _, _, [], h_video, h_container, by simp, rfl⟩
  · unfold InLimits
    decide +kernel
  · unfold InLimits
    decide +kernel

end Viewport

end ClipEdit
