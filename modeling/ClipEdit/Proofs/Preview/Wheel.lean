import ClipEdit.Preview.Viewport
import ClipEdit.Proofs.Settings.Usable
import ClipEdit.Proofs.Scalar.Power

/-!
# The wheel

A turn of the wheel zooms by a whole power of its step, and the limits cut short what is too much.
So turning it further inwards should never show less, and a very long turn should end at a limit.

In binary64 that is so for as long as the power fits (`Turns`). Powers grow with the exponent, their
products with the zoom keep the order, and clamping keeps it too: `Ready.zoom_le_of_turns`. Where the
power does not fit, it is an infinity or, in the other direction, zero. Such a factor is not cut
short but ignored, and the viewport stays what it is (`Ready.wheel_of_not_turns`). Between such a
turn and a shorter one the order of the zooms is lost, unless the zoom was at its limit before:
`wheel_mono_iff` says for which pairs of turns it is kept.
-/

namespace ClipEdit

open Scalar Gauge Binary64

namespace Viewport

variable {v : Viewport Float} {settings : Settings Float} {factor : Float} {m n : Int}

/-! ### Zooms -/

/-- The zoom that a factor leads to, as far as the limits allow. -/
def clampedZoom (v : Viewport Float) (factor : Float) : Float :=
  clamp (v.zoom * factor) v.minZoom v.maxZoom

/-- A finite, positive factor sets the zoom, and some pan. -/
theorem exists_zoomAt_eq (h_fin : isFinite factor = true) (h_pos : 0 < factor)
    (anchor : Point .screen Float) :
    ∃ pan, v.zoomAt anchor factor = { v with zoom := v.clampedZoom factor, pan } := by
  have h_not : ¬ factor ≤ 0 := (Gauge.not_le (isNumber_of_isFinite h_fin) isNumber_zero).mpr h_pos
  unfold zoomAt
  rw [if_neg (by simp [h_fin, h_not])]
  exact ⟨_, rfl⟩

/-- Any other factor is ignored. -/
theorem zoomAt_of_ignored (h : (!isFinite factor || factor ≤ 0) = true)
    (anchor : Point .screen Float) : v.zoomAt anchor factor = v := by
  unfold zoomAt
  rw [if_pos h]

/-- **A viewport that is ready to be zoomed**: its zoom is finite and positive, its limits are a range
of such zooms, and a notch of the wheel does not zoom out. -/
structure Ready (v : Viewport Float) : Prop where
  isFinite_zoom : isFinite v.zoom = true
  zero_lt_zoom : 0 < v.zoom
  isFinite_minZoom : isFinite v.minZoom = true
  zero_lt_minZoom : 0 < v.minZoom
  minZoom_le_maxZoom : v.minZoom ≤ v.maxZoom
  isFinite_maxZoom : isFinite v.maxZoom = true
  one_le_zoomStep : 1.0 ≤ v.zoomStep

namespace Ready

theorem fit (h : settings.Usable) (video : Size .video Float) (container : Size .screen Float) :
    (fit settings video container).Ready where
  isFinite_zoom := isFinite_one
  zero_lt_zoom := Gauge.zero_lt_one
  isFinite_minZoom := h.minZoom.1
  zero_lt_minZoom := h.minZoom.2
  minZoom_le_maxZoom := h.minZoom_le_maxZoom
  isFinite_maxZoom := h.isFinite_maxZoom
  one_le_zoomStep := Gauge.le_of_lt h.zoomStep.2

/-- The product with a positive factor is a number, though perhaps not a finite one. -/
theorem isNumber_mul (h : v.Ready) (h_pos : 0 < factor) : IsNumber (v.zoom * factor) :=
  Binary64.isNumber_mul
    ((Binary64.value_zero .positive).symm.trans_lt (value_lt_of_lt h.zero_lt_zoom))
    ((Binary64.value_zero .positive).symm.trans_lt (value_lt_of_lt h_pos))

/-- What the zoom comes to: the limits stand in for what is past them. -/
theorem value_clampedZoom (h : v.Ready) (h_pos : 0 < factor) :
    IsNumber (v.clampedZoom factor) ∧ Gauge.value (v.clampedZoom factor) =
      min (max (Gauge.value (v.zoom * factor)) (Gauge.value v.minZoom)) (Gauge.value v.maxZoom) :=
  isNumber_clamp (h.isNumber_mul h_pos) (isNumber_of_isFinite h.isFinite_minZoom)
    (isNumber_of_isFinite h.isFinite_maxZoom)

/-- **A zoom leaves a viewport ready.** -/
theorem zoomAt (h : v.Ready) (anchor : Point .screen Float) (factor : Float) :
    (v.zoomAt anchor factor).Ready := by
  by_cases h_factor : (!isFinite factor || factor ≤ 0) = true
  · rw [zoomAt_of_ignored h_factor]
    exact h
  · obtain ⟨h_fin, h_not⟩ : isFinite factor = true ∧ ¬ factor ≤ 0 := by simpa using h_factor
    have h_pos : 0 < factor := (Gauge.not_le (isNumber_of_isFinite h_fin) isNumber_zero).mp h_not
    obtain ⟨h_lo, h_hi⟩ := clamp_mem (h.isNumber_mul h_pos) h.minZoom_le_maxZoom
    obtain ⟨pan, h_eq⟩ := exists_zoomAt_eq (v := v) h_fin h_pos anchor
    rw [h_eq]
    exact { h with
      isFinite_zoom := Settings.isFinite_of_mem h_lo h_hi h.isFinite_minZoom h.isFinite_maxZoom
      zero_lt_zoom := Gauge.lt_of_lt_of_le h.zero_lt_minZoom h_lo }

/-- **A step leaves a viewport ready.** -/
theorem apply (h : v.Ready) (step : Step Float) : (v.apply step).Ready := by
  cases step with
  | zoomAt anchor factor => exact h.zoomAt anchor factor
  | wheel anchor notches => exact h.zoomAt anchor _
  | reset => exact { h with isFinite_zoom := isFinite_one, zero_lt_zoom := Gauge.zero_lt_one }
  | _ => exact { h with }

theorem run (h : v.Ready) (steps : List (Step Float)) : (v.run steps).Ready := by
  induction steps generalizing v with
  | nil => exact h
  | cons step rest ih => exact ih (h.apply step)

end Ready

/-! ### Turns -/

/-- **The wheel turns** by a number of notches if the power of its step fits. -/
def Turns (v : Viewport Float) (n : Int) : Prop := Fits v.zoomStep n

namespace Ready

/-- A turn that is too long is ignored. -/
theorem wheel_of_not_turns (h : v.Ready) (hn : ¬ v.Turns n) (anchor : Point .screen Float) :
    v.wheel anchor n = v :=
  zoomAt_of_ignored (power_of_not_fits hn h.one_le_zoomStep) anchor

/-- Any other turn sets the zoom. -/
theorem zoom_wheel (h : v.Ready) (hn : v.Turns n) (anchor : Point .screen Float) :
    (v.wheel anchor n).zoom = v.clampedZoom (power v.zoomStep n) := by
  obtain ⟨h_fin, h_pos⟩ := Fits.power_mem hn h.one_le_zoomStep
  obtain ⟨pan, h_eq⟩ := exists_zoomAt_eq (v := v) h_fin h_pos anchor
  unfold wheel
  rw [h_eq]

/-- **Of two turns, the one further inwards shows at least as much.** -/
theorem zoom_le_of_turns (h : v.Ready) (hn : v.Turns n) (hm : v.Turns m) (h_le : n ≤ m)
    (anchor : Point .screen Float) : (v.wheel anchor n).zoom ≤ (v.wheel anchor m).zoom := by
  have h_pos := (Fits.power_mem hn h.one_le_zoomStep).2
  have h_self := Gauge.le_refl (isNumber_of_isFinite h.isFinite_zoom)
  have h_power := power_mono h.one_le_zoomStep hn h_le
  rw [h.zoom_wheel hn, h.zoom_wheel hm]
  exact clamp_mono (mul_mono h.zero_lt_zoom h_self h_pos h_power)
    (isNumber_of_isFinite h.isFinite_minZoom) (isNumber_of_isFinite h.isFinite_maxZoom)

/-- **Which turns keep the order.** One that is ignored leaves the zoom as it was. -/
theorem zoom_le_iff (h : v.Ready) (h_le : n ≤ m) (anchor : Point .screen Float) :
    (v.wheel anchor n).zoom ≤ (v.wheel anchor m).zoom ↔
      (v.Turns n ∨ v.zoom ≤ (v.wheel anchor m).zoom) ∧
        (v.Turns m ∨ (v.wheel anchor n).zoom ≤ v.zoom) := by
  have h_self := Gauge.le_refl (isNumber_of_isFinite h.isFinite_zoom)
  by_cases hn : v.Turns n <;> by_cases hm : v.Turns m
  · simp [hn, hm, h.zoom_le_of_turns hn hm h_le]
  · simp [hn, hm, h.wheel_of_not_turns hm]
  · simp [hn, hm, h.wheel_of_not_turns hn]
  · simp [h.wheel_of_not_turns hn, h.wheel_of_not_turns hm, h_self]

/-- **A turn past the upper limit ends there.** -/
theorem zoom_wheel_of_maxZoom_le (h : v.Ready) (hn : v.Turns n)
    (h_past : v.maxZoom ≤ v.zoom * power v.zoomStep n) (anchor : Point .screen Float) :
    ((v.wheel anchor n).zoom == v.maxZoom) = true := by
  obtain ⟨h_number, h_value⟩ := h.value_clampedZoom (Fits.power_mem hn h.one_le_zoomStep).2
  rw [min_eq_right ((value_le_of_le h_past).trans (le_max_left _ _))] at h_value
  rw [h.zoom_wheel hn]
  exact beq_iff.mpr ⟨h_number, isNumber_of_isFinite h.isFinite_maxZoom, h_value⟩

/-- **A turn past the lower limit ends there.** -/
theorem zoom_wheel_of_le_minZoom (h : v.Ready) (hn : v.Turns n)
    (h_past : v.zoom * power v.zoomStep n ≤ v.minZoom) (anchor : Point .screen Float) :
    ((v.wheel anchor n).zoom == v.minZoom) = true := by
  obtain ⟨h_number, h_value⟩ := h.value_clampedZoom (Fits.power_mem hn h.one_le_zoomStep).2
  rw [max_eq_right (value_le_of_le h_past),
    min_eq_left (value_le_of_le h.minZoom_le_maxZoom)] at h_value
  rw [h.zoom_wheel hn]
  exact beq_iff.mpr ⟨h_number, isNumber_of_isFinite h.isFinite_minZoom, h_value⟩

end Ready

/-- **For which turns of the wheel the zooms keep the order.** In every viewport that steps lead to
under validated settings, a turn is carried out if the power of the step fits, and then shorter ones
are, too. Between turns that are carried out, further inwards never shows less, and a turn that would
go past a limit ends there. A turn that is not carried out changes nothing, so that beside it the
order is kept only by turns that do not lead past the zoom as it was. -/
theorem wheel_mono_iff (settings : Settings Float) (video : Size .video Float)
    (container : Size .screen Float) (steps : List (Step Float)) (anchor : Point .screen Float) :
    let v := (fit settings.validate video container).run steps
    (∀ n m, n ≤ m → ((v.wheel anchor n).zoom ≤ (v.wheel anchor m).zoom ↔
        (v.Turns n ∨ v.zoom ≤ (v.wheel anchor m).zoom) ∧
          (v.Turns m ∨ (v.wheel anchor n).zoom ≤ v.zoom))) ∧
      (∀ n m, n ≤ m → v.Turns n → v.Turns m →
        (v.wheel anchor n).zoom ≤ (v.wheel anchor m).zoom) ∧
      (∀ n m, v.Turns n → m.natAbs ≤ n.natAbs → v.Turns m) ∧
      (∀ n, v.Turns n → v.maxZoom ≤ v.zoom * power v.zoomStep n →
        ((v.wheel anchor n).zoom == v.maxZoom) = true) ∧
      (∀ n, v.Turns n → v.zoom * power v.zoomStep n ≤ v.minZoom →
        ((v.wheel anchor n).zoom == v.minZoom) = true) ∧
      ∀ n, ¬ v.Turns n → v.wheel anchor n = v := by
  intro v
  -- steps keep a viewport ready, so all that is left is about one turn of the wheel
  have h : v.Ready := (Ready.fit settings.validate_usable video container).run steps
  refine ⟨?_, ?_, ?_, ?_, ?_, ?_⟩
  · exact fun n m h_le => h.zoom_le_iff h_le anchor
  · exact fun n m h_le hn hm => h.zoom_le_of_turns hn hm h_le anchor
  · exact fun n m hn h_le => hn.of_le h.one_le_zoomStep h_le
  · exact fun n hn h_past => h.zoom_wheel_of_maxZoom_le hn h_past anchor
  · exact fun n hn h_past => h.zoom_wheel_of_le_minZoom hn h_past anchor
  · exact fun n hn => h.wheel_of_not_turns hn anchor

/-- The settings of a fresh editor: ten notches show more than twice as much, 7447 lead to the upper
limit and as many outwards to the lower one. The power of one more notch is infinite. -/
theorem wheel_mono_iff_of_fresh :
    let v := (fit (Settings.validate Settings.default) ⟨100.0, 100.0⟩ ⟨100.0, 100.0⟩).run []
    v.Turns 7447 ∧ v.Turns (-7447) ∧ v.Turns 10 ∧ ¬ v.Turns 7448 ∧
      (v.wheel .zero 10).zoom ≤ (v.wheel .zero 7447).zoom ∧
      ((v.wheel .zero 7447).zoom == v.maxZoom) = true ∧
      ((v.wheel .zero (-7447)).zoom == v.minZoom) = true ∧
      v.wheel .zero 7448 = v ∧ ¬ (v.wheel .zero 10).zoom ≤ v.zoom ∧
      ¬ (v.wheel .zero 10).zoom ≤ (v.wheel .zero 7448).zoom := by
  intro v
  have h_turns : v.Turns 7447 := by
    unfold Turns
    decide +kernel
  have h_not : ¬ v.Turns 7448 := by
    unfold Turns
    decide +kernel
  -- the longest turn that fits goes far past the limits, either way
  have h_in : v.maxZoom ≤ v.zoom * power v.zoomStep 7447 := by decide +kernel
  have h_out : v.zoom * power v.zoomStep (-7447) ≤ v.minZoom := by decide +kernel
  have h_more : ¬ (v.wheel .zero 10).zoom ≤ v.zoom := by decide +kernel
  obtain ⟨h_iff, h_order, h_shorter, h_max, h_min, h_ignored⟩ :=
    wheel_mono_iff Settings.default ⟨100.0, 100.0⟩ ⟨100.0, 100.0⟩ [] .zero
  have h_back : v.Turns (-7447) := h_shorter 7447 (-7447) h_turns (by decide)
  have h_ten : v.Turns 10 := h_shorter 7447 10 h_turns (by decide)
  refine ⟨h_turns, h_back, h_ten, h_not, h_order 10 7447 (by decide) h_ten h_turns,
    h_max 7447 h_turns h_in, h_min (-7447) h_back h_out, h_ignored 7448 h_not, h_more, ?_⟩
  rw [h_iff 10 7448 (by decide)]
  exact fun h_both => h_both.2.elim h_not h_more

/-- **A long turn shows less than a short one.** With the settings of a fresh editor ten notches
inwards zoom in, and ten thousand leave the video as it was, far from the upper limit. -/
theorem wheel_not_mono :
    let v := fit (Settings.validate (Settings.default : Settings Float)) ⟨100.0, 100.0⟩
      ⟨100.0, 100.0⟩
    (10 : Int) ≤ 10000 ∧ ¬ (v.wheel .zero 10).zoom ≤ (v.wheel .zero 10000).zoom ∧
      (v.wheel .zero 10000).zoom = 1.0 ∧ v.maxZoom = 10.0 := by
  decide +kernel

end Viewport

end ClipEdit
