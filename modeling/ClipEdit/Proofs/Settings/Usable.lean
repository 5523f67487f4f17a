import ClipEdit.Proofs.Scalar.Clamp
import ClipEdit.Wire.Settings

/-!
# Usable settings

`Settings.Usable` says what the editor expects of its settings: two lengths in their ranges, limits
of the zoom that are positive, finite and in order, and a notch of the wheel that zooms in.

* `validate_usable` — whatever the settings are, validated ones are usable (`validate_usable_of_default`
  says why, for binary64 and for exact arithmetic at once);
* `Usable.validate_eq` — validating leaves usable settings as they are, to the last bit, so doing it
  twice is doing it once;
* `InForce.usable` — the editor works under usable settings only, wherever they come from.

The limits of the zoom are the one place where two fields are repaired together. The upper limit is
compared with the lower one after this has been repaired, and where it is replaced the larger of the
default and the lower limit takes its place; both are finite, so the result is.
-/

namespace ClipEdit

open Scalar Gauge

namespace Settings

/-- **Usable settings.** -/
structure Usable {α : Type} [Scalar α] (s : Settings α) : Prop where
  boundaryEpsilon : 0.001 ≤ s.boundaryEpsilon ∧ s.boundaryEpsilon ≤ 1.0
  hitRadiusFraction : 0.001 ≤ s.hitRadiusFraction ∧ s.hitRadiusFraction ≤ 0.5
  minZoom : isFinite s.minZoom = true ∧ 0 < s.minZoom
  minZoom_le_maxZoom : s.minZoom ≤ s.maxZoom
  isFinite_maxZoom : isFinite s.maxZoom = true
  zoomStep : isFinite s.zoomStep = true ∧ 1.0 < s.zoomStep

/-- **Settings that the editor works under**: those of a fresh editor, settings that were given to it
and validated, and settings that were read from a text or a file. -/
inductive InForce : Settings Float → Prop
  | fresh : InForce default
  | given (s : Settings Float) : InForce s.validate
  | read {text : String} {s : Settings Float} (h : ofJson text = .ok s) : InForce s
  | loaded {path : String} {contents : Except FileFault String} {s : Settings Float}
      (h : ofFile path contents = .ok s) : InForce s

/-! ### Repairing one field -/

section Repair

variable {α : Type} [Scalar α] [Gauge α] {x fallback lo hi : α}

/-- What is repaired ends in the range, since the fallback stands in for what is no number. -/
theorem repair_mem (x : α) (h_fallback : isFinite fallback = true) (h_range : lo ≤ hi) :
    lo ≤ repair x fallback lo hi ∧ repair x fallback lo hi ≤ hi := by
  have h_finite : isFinite (if isFinite x then x else fallback) = true := by
    split
    · assumption
    · exact h_fallback
  exact clamp_mem (isNumber_of_isFinite h_finite) h_range

/-- What is finite and in the range needs no repair. -/
theorem repair_eq_self (hx : isFinite x = true) (h_lo : lo ≤ x) (h_hi : x ≤ hi) :
    repair x fallback lo hi = x := by
  unfold repair
  rw [if_pos hx]
  exact clamp_eq_self h_lo h_hi

end Repair

/-! ### Validated settings -/

/-- A number between two finite ones is finite. -/
theorem isFinite_of_mem {x lo hi : Float} (h_lo : lo ≤ x) (h_hi : x ≤ hi)
    (h_lo' : isFinite lo = true) (h_hi' : isFinite hi = true) : isFinite x = true := by
  obtain ⟨-, hx, h_above⟩ := le_iff.mp h_lo
  obtain ⟨-, -, h_below⟩ := le_iff.mp h_hi
  have h_low := abs_lt.mp ((Binary64.isFinite_iff (Binary64.inFormat_parts lo)).mp h_lo').2
  have h_high := abs_lt.mp ((Binary64.isFinite_iff (Binary64.inFormat_parts hi)).mp h_hi').2
  exact (Binary64.isFinite_iff (Binary64.inFormat_parts x)).mpr
    ⟨hx, abs_lt.mpr ⟨h_low.1.trans_le h_above, h_below.trans_lt h_high.2⟩⟩

section Validated

variable {α : Type} [Scalar α] [Gauge α]

/-- **Validated settings are usable**, whatever the numbers are, if the settings of a fresh editor
are: these stand in for what cannot be used. -/
theorem validate_usable_of_default (h : (default : Settings α).Usable)
    (h_epsilon : isFinite (default : Settings α).boundaryEpsilon = true)
    (h_fraction : isFinite (default : Settings α).hitRadiusFraction = true) (s : Settings α) :
    s.validate.Usable := by
  -- each setting is either one that passed its own test or the default, which is usable
  have h_min : isFinite s.validate.minZoom = true ∧ 0 < s.validate.minZoom := by
    unfold validate
    dsimp only
    split
    · next h_given =>
      exact ⟨h_given.1, (Gauge.not_le (isNumber_of_isFinite h_given.1) isNumber_zero).mp h_given.2⟩
    · exact h.minZoom
  have h_max : isFinite s.validate.maxZoom = true ∧ s.validate.minZoom ≤ s.validate.maxZoom := by
    have h_number := isNumber_of_isFinite h_min.1
    -- the upper limit is compared with the lower one as that was repaired
    have h_eq : s.validate.maxZoom =
        if isFinite s.maxZoom = true ∧ ¬ s.maxZoom < s.validate.minZoom then s.maxZoom
        else atLeast (default : Settings α).maxZoom s.validate.minZoom := rfl
    rw [h_eq]
    split
    · next h_given =>
      exact ⟨h_given.1, (Gauge.not_lt (isNumber_of_isFinite h_given.1) h_number).mp h_given.2⟩
    · obtain ⟨h_larger, h_le, -⟩ := isNumber_atLeast h_number (default : Settings α).maxZoom
      exact ⟨isFinite_atLeast h.isFinite_maxZoom h_min.1, le_iff.mpr ⟨h_number, h_larger, h_le⟩⟩
  have h_step : isFinite s.validate.zoomStep = true ∧ 1.0 < s.validate.zoomStep := by
    unfold validate
    dsimp only
    split
    · next h_given =>
      exact ⟨h_given.1, (Gauge.not_le (isNumber_of_isFinite h_given.1)
        (isNumber_of_isFinite isFinite_one)).mp h_given.2⟩
    · exact h.zoomStep
  exact ⟨repair_mem _ h_epsilon (Gauge.le_trans h.boundaryEpsilon.1 h.boundaryEpsilon.2),
    repair_mem _ h_fraction (Gauge.le_trans h.hitRadiusFraction.1 h.hitRadiusFraction.2), h_min,
    h_max.2, h_max.1, h_step⟩

end Validated

theorem validate_usable (s : Settings Float) : s.validate.Usable :=
  validate_usable_of_default ⟨by decide, by decide, by decide, by decide, by decide, by decide⟩ (by decide)
    (by decide) s

/-- The same in exact arithmetic. -/
theorem validate_usable_exact (s : Settings ℚ) : s.validate.Usable :=
  validate_usable_of_default ⟨by decide +kernel, by decide +kernel, by decide +kernel, by decide +kernel,
    by decide +kernel, by decide +kernel⟩ rfl rfl s

/-- **Usable settings need no repair.** -/
theorem Usable.validate_eq {s : Settings Float} (h : s.Usable) : s.validate = s := by
  -- each condition under which a field is repaired is false
  have h_epsilon : isFinite s.boundaryEpsilon = true :=
    isFinite_of_mem h.boundaryEpsilon.1 h.boundaryEpsilon.2 (by decide) (by decide)
  have h_fraction : isFinite s.hitRadiusFraction = true :=
    isFinite_of_mem h.hitRadiusFraction.1 h.hitRadiusFraction.2 (by decide) (by decide)
  have h_min : isFinite s.minZoom = true ∧ ¬ s.minZoom ≤ 0 :=
    ⟨h.minZoom.1, (Gauge.not_le (isNumber_of_isFinite h.minZoom.1) isNumber_zero).mpr h.minZoom.2⟩
  have h_max : isFinite s.maxZoom = true ∧ ¬ s.maxZoom < s.minZoom :=
    ⟨h.isFinite_maxZoom, (Gauge.not_lt (isNumber_of_isFinite h.isFinite_maxZoom)
      (isNumber_of_isFinite h.minZoom.1)).mpr h.minZoom_le_maxZoom⟩
  have h_step : isFinite s.zoomStep = true ∧ ¬ s.zoomStep ≤ 1.0 :=
    ⟨h.zoomStep.1, (Gauge.not_le (isNumber_of_isFinite h.zoomStep.1)
      (isNumber_of_isFinite isFinite_one)).mpr h.zoomStep.2⟩
  unfold validate
  dsimp only
  rw [repair_eq_self h_epsilon h.boundaryEpsilon.1 h.boundaryEpsilon.2,
    repair_eq_self h_fraction h.hitRadiusFraction.1 h.hitRadiusFraction.2, if_pos h_min,
    if_pos h_max, if_pos h_step]

/-- Settings that were read are validated ones. -/
theorem exists_validate_of_ofJson {text : String} {s : Settings Float} (h : ofJson text = .ok s) :
    ∃ given : Settings Float, given.validate = s := by
  unfold ofJson at h
  split at h
  · next given _ => exact ⟨given, Except.ok.inj h⟩
  · exact absurd h (by simp)

/-- **The editor works under usable settings only.** -/
theorem InForce.usable {s : Settings Float} (h : s.InForce) : s.Usable := by
  cases h with
  | fresh =>
    have h_same : (default : Settings Float).validate = default := by decide +kernel
    rw [← h_same]
    exact validate_usable _
  | given s => exact validate_usable s
  | read h_read =>
    obtain ⟨given, rfl⟩ := exists_validate_of_ofJson h_read
    exact validate_usable given
  | @loaded path contents s h_loaded =>
    -- a file that can be read is read as a text
    cases contents with
    | ok text =>
      obtain ⟨given, rfl⟩ := exists_validate_of_ofJson h_loaded
      exact validate_usable given
    | error fault => exact absurd h_loaded (by simp [ofFile])

end Settings

end ClipEdit
