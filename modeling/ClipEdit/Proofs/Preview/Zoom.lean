import ClipEdit.Proofs.Preview.Affine

/-!
# Zooming about an anchor

A zoom chooses a new zoom factor and then the one pan that puts the point of the video which was
under the anchor back there (`zoomedUnder`). So what lies under the anchor does not depend on how
far the limits let the zoom go (`toVideo_zoomAt`), and a second zoom about the same anchor replaces
the first one, its factor aside (`zoomAt_zoomAt`).

Where the limits cut nothing short the zooms about one anchor therefore compose like their factors
multiply. The notches of the wheel are the whole powers of one factor; the program computes them by
repeated squaring (`power_eq_zpow`), and turning the wheel back undoes it.
-/

namespace ClipEdit

namespace Exact

open Scalar

/-- Repeated squaring multiplies the accumulator by a power of the base. -/
theorem powerLoop_eq (acc base : ℚ) (n : ℕ) : powerLoop acc base n = acc * base ^ n := by
  -- one step halves the exponent and moves its last binary digit to the accumulator
  induction n using Nat.strong_induction_on generalizing acc base with
  | _ n ih =>
    have h_digits : base ^ n = base ^ (n % 2) * (base * base) ^ (n / 2) := by
      rw [← pow_two, ← pow_mul, ← pow_add, Nat.mod_add_div]
    have h_acc : (if n % 2 = 1 then acc * base else acc) = acc * base ^ (n % 2) := by
      rcases Nat.mod_two_eq_zero_or_one n with h | h <;> simp [h]
    rw [powerLoop, h_acc, h_digits, ← mul_assoc]
    split
    · next h_two => exact ih (n / 2) (by omega) _ _
    · next h_small =>
      have h_done : n / 2 = 0 := by omega
      rw [h_done, pow_zero, mul_one]

/-- **Whole powers**, the negative ones included. -/
theorem power_eq_zpow (x : ℚ) (n : ℤ) : power x n = x ^ n := by
  have h_one : (1.0 : ℚ) = 1 := by norm_num
  unfold power
  dsimp only
  rw [powerLoop_eq, h_one, one_mul, one_div]
  -- the sign decides whether a reciprocal is taken at the end
  split
  · next h_neg =>
    have h_abs : n = -(n.natAbs : ℤ) := by omega
    conv_rhs => rw [h_abs]
    rw [zpow_neg, zpow_natCast]
  · next h_nonneg =>
    have h_abs : n = (n.natAbs : ℤ) := by omega
    conv_rhs => rw [h_abs]
    rw [zpow_natCast]

end Exact

namespace Viewport

open Scalar Exact

variable {v : Viewport ℚ} {anchor : Point .screen ℚ} {factor : ℚ}

/-! ### One point under the anchor -/

/-- The same viewport at another zoom, with a given point of the video under the anchor. -/
def zoomedUnder (v : Viewport ℚ) (anchor : Point .screen ℚ) (p : Point .video ℚ) (zoom : ℚ) :
    Viewport ℚ :=
  { v with zoom, pan := v.panUnder anchor p (v.fitScale * zoom) }

/-- The last of two zooms about an anchor decides. -/
@[simp] theorem zoomedUnder_zoomedUnder (v : Viewport ℚ) (anchor : Point .screen ℚ)
    (p q : Point .video ℚ) (zoom zoom' : ℚ) :
    (v.zoomedUnder anchor p zoom).zoomedUnder anchor q zoom' = v.zoomedUnder anchor q zoom' := rfl

/-- **Which pan puts a point under the anchor.** There is exactly one. -/
theorem toVideo_eq_iff (h_scale : v.scale ≠ 0) (p : Point .video ℚ) :
    v.toVideo anchor = p ↔ v.pan = v.panUnder anchor p v.scale := by
  -- both coordinates are the same linear equation
  have h_axis : ∀ a origin pan q : ℚ,
      (a - (origin + pan)) / v.scale = q ↔ pan = a - origin - q * v.scale := by
    intro a origin pan q
    rw [div_eq_iff h_scale]
    constructor <;> intro h_eq <;> linarith
  rw [Point.ext_iff, Point.ext_iff]
  exact and_congr (h_axis anchor.x _ v.pan.x p.x) (h_axis anchor.y _ v.pan.y p.y)

/-- The point that a zoom is asked to put under the anchor is there. -/
theorem toVideo_zoomedUnder (h_fit : v.fitScale ≠ 0) (p : Point .video ℚ) {zoom : ℚ}
    (h_zoom : zoom ≠ 0) : (v.zoomedUnder anchor p zoom).toVideo anchor = p := by
  have h_scale : (v.zoomedUnder anchor p zoom).scale ≠ 0 := mul_ne_zero h_fit h_zoom
  exact (toVideo_eq_iff h_scale p).mpr rfl

/-- Nothing changes when the zoom stays what it is. -/
theorem zoomedUnder_self (h_scale : v.scale ≠ 0) :
    v.zoomedUnder anchor (v.toVideo anchor) v.zoom = v := by
  have h_pan : v.pan = v.panUnder anchor (v.toVideo anchor) v.scale :=
    (toVideo_eq_iff h_scale _).mp rfl
  show { v with pan := v.panUnder anchor (v.toVideo anchor) v.scale } = v
  rw [← h_pan]

/-! ### Zooms -/

theorem zoomAt_eq (v : Viewport ℚ) (h_pos : 0 < factor) (anchor : Point .screen ℚ) :
    v.zoomAt anchor factor = v.zoomedUnder anchor (v.toVideo anchor) (v.zoomedTo factor) :=
  zoomAt_of_pos h_pos anchor

/-- The zoom that the limits allow is positive, for they are. -/
theorem Sound.zero_lt_zoomedTo (h : v.Sound) (factor : ℚ) : 0 < v.zoomedTo factor :=
  h.zero_lt_minZoom.trans_le (v.zoomedTo_mem h.minZoom_le_maxZoom factor).1

/-- **A zoom keeps the point under the anchor**, also if the limits cut its factor short. -/
theorem toVideo_zoomAt (h : v.Sound) (h_pos : 0 < factor) (anchor : Point .screen ℚ) :
    (v.zoomAt anchor factor).toVideo anchor = v.toVideo anchor := by
  rw [v.zoomAt_eq h_pos]
  exact toVideo_zoomedUnder h.zero_lt_fitScale.ne' _ (h.zero_lt_zoomedTo factor).ne'

/-- Do the limits cut a factor short? -/
def Cuts (v : Viewport ℚ) (factor : ℚ) : Prop :=
  v.zoom * factor < v.minZoom ∨ v.maxZoom < v.zoom * factor

/-- A factor that is not cut short is carried out as it is. -/
theorem zoomedTo_of_not_cuts (h : ¬ v.Cuts factor) : v.zoomedTo factor = v.zoom * factor := by
  unfold Cuts at h
  push Not at h
  unfold zoomedTo
  rw [clamp_eq_within]
  exact within_eq_self h.1 h.2

/-- **Two zooms about one anchor** are one zoom by both factors. That one is not cut short if the
second of the two was not: they lead to the same zoom. -/
theorem zoomAt_zoomAt (h : v.Sound) {f g : ℚ} (h_f : 0 < f) (h_g : 0 < g)
    (h_first : ¬ v.Cuts f) (h_second : ¬ (v.zoomAt anchor f).Cuts g) :
    (v.zoomAt anchor f).zoomAt anchor g = v.zoomAt anchor (f * g) := by
  -- the first zoom leaves the anchor where it was
  have h_under : (v.zoomAt anchor f).toVideo anchor = v.toVideo anchor :=
    toVideo_zoomAt h h_f anchor
  have h_once : v.zoomAt anchor f = v.zoomedUnder anchor (v.toVideo anchor) (v.zoom * f) := by
    rw [v.zoomAt_eq h_f, zoomedTo_of_not_cuts h_first]
  have h_zoom : (v.zoomAt anchor f).zoom * g = v.zoom * (f * g) := by
    rw [h_once]
    exact mul_assoc _ _ _
  -- since nothing was cut off on the way, nothing is cut off in one go
  have h_both : ¬ v.Cuts (f * g) := by
    unfold Cuts at h_second ⊢
    rw [h_zoom, h_once] at h_second
    exact h_second
  calc (v.zoomAt anchor f).zoomAt anchor g
      = (v.zoomAt anchor f).zoomedUnder anchor (v.toVideo anchor) (v.zoom * (f * g)) := by
        rw [zoomAt_eq _ h_g, zoomedTo_of_not_cuts h_second, h_zoom, h_under]
    _ = v.zoomedUnder anchor (v.toVideo anchor) (v.zoom * (f * g)) := by
        rw [h_once, zoomedUnder_zoomedUnder]
    _ = v.zoomAt anchor (f * g) := by
        rw [v.zoomAt_eq (mul_pos h_f h_g), zoomedTo_of_not_cuts h_both]

/-! ### The wheel -/

/-- The wheel zooms by a power of its step. -/
theorem wheel_eq (v : Viewport ℚ) (anchor : Point .screen ℚ) (n : ℤ) :
    v.wheel anchor n = v.zoomAt anchor (v.zoomStep ^ n) := by
  unfold wheel
  rw [power_eq_zpow]

/-- **Turning the wheel back** undoes it. -/
theorem wheel_wheel_neg (h : v.Sound) {n : ℤ} (h_there : ¬ v.Cuts (v.zoomStep ^ n))
    (h_back : ¬ (v.wheel anchor n).Cuts (v.zoomStep ^ (-n))) :
    (v.wheel anchor n).wheel anchor (-n) = v := by
  have h_step : 0 < v.zoomStep := zero_lt_one.trans h.one_lt_zoomStep
  have h_there_pos : 0 < v.zoomStep ^ n := zpow_pos h_step n
  have h_back_pos : 0 < v.zoomStep ^ (-n) := zpow_pos h_step (-n)
  have h_cancel : v.zoomStep ^ n * v.zoomStep ^ (-n) = 1 := by
    rw [← zpow_add₀ h_step.ne', add_neg_cancel, zpow_zero]
  have h_same : (v.wheel anchor n).zoomStep = v.zoomStep := by
    rw [wheel_eq, v.zoomAt_eq h_there_pos]
    rfl
  rw [wheel_eq v] at h_back h_same ⊢
  rw [wheel_eq, h_same, zoomAt_zoomAt h h_there_pos h_back_pos h_there h_back, h_cancel]
  -- what is left is a zoom by `1`, which the limits do not cut short either
  have h_one : ¬ v.Cuts 1 := by
    have h_zoom : (v.zoomAt anchor (v.zoomStep ^ n)).zoom * v.zoomStep ^ (-n) = v.zoom * 1 := by
      rw [v.zoomAt_eq h_there_pos, zoomedTo_of_not_cuts h_there, ← h_cancel]
      exact mul_assoc _ _ _
    unfold Cuts at h_back ⊢
    rw [h_zoom, v.zoomAt_eq h_there_pos] at h_back
    exact h_back
  rw [v.zoomAt_eq zero_lt_one, zoomedTo_of_not_cuts h_one, mul_one]
  exact zoomedUnder_self h.zero_lt_scale.ne'

/-- **The laws of zooming about an anchor**, in a reachable viewport. The point of the video under
the anchor stays there whatever the limits do; two zooms that the limits do not cut short are one
zoom by the product of their factors; and the wheel, turned and turned back without being cut short,
leaves the viewport as it was. -/
theorem zoomAt_laws (h : v.Reachable) (anchor : Point .screen ℚ) :
    (∀ factor, 0 < factor → (v.zoomAt anchor factor).toVideo anchor = v.toVideo anchor) ∧
      (∀ f g, 0 < f → 0 < g → ¬ v.Cuts f → ¬ (v.zoomAt anchor f).Cuts g →
        (v.zoomAt anchor f).zoomAt anchor g = v.zoomAt anchor (f * g)) ∧
      (∀ n : ℤ, ¬ v.Cuts (v.zoomStep ^ n) → ¬ (v.wheel anchor n).Cuts (v.zoomStep ^ (-n)) →
        (v.wheel anchor n).wheel anchor (-n) = v) := by
  have h_sound := h.sound
  refine ⟨?_, ?_, ?_⟩
  · intro factor h_pos
    exact toVideo_zoomAt h_sound h_pos anchor
  · intro f g h_f h_g h_first h_second
    exact zoomAt_zoomAt h_sound h_f h_g h_first h_second
  · -- a turn of the wheel is a zoom by a whole power
    intro n h_there h_back
    exact wheel_wheel_neg h_sound h_there h_back

/-- A video that was shifted: a zoom by 100 about a corner is cut down to 10, zooms by 3 and by 2
make one by 6, and five notches of the wheel outwards are undone by five inwards. -/
theorem zoomAt_laws_of_shifted :
    let v := (fit (Settings.validate Settings.default) ⟨1920, 1080⟩ ⟨960, 960⟩).run
      [.panBy ⟨30, -7⟩]
    let corner : Point .screen ℚ := ⟨960, 0⟩
    v.Reachable ∧ (0 : ℚ) < 100 ∧ v.Cuts 100 ∧
      (v.zoomAt corner 100).toVideo corner = v.toVideo corner ∧
      (0 : ℚ) < 3 ∧ (0 : ℚ) < 2 ∧ ¬ v.Cuts 3 ∧ ¬ (v.zoomAt corner 3).Cuts 2 ∧
      (v.zoomAt corner 3).zoomAt corner 2 = v.zoomAt corner (3 * 2) ∧
      ¬ v.Cuts (v.zoomStep ^ (-5 : ℤ)) ∧
      ¬ (v.wheel corner (-5)).Cuts (v.zoomStep ^ (-(-5) : ℤ)) ∧
      (v.wheel corner (-5)).wheel corner (-(-5)) = v := by
  intro v corner
  have h_video : (⟨1920, 1080⟩ : Size .video ℚ).Positive := ⟨by norm_num, by norm_num⟩
  have h_container : (⟨960, 960⟩ : Size .screen ℚ).Positive := ⟨by norm_num, by norm_num⟩
  have h_reachable : v.Reachable :=
    ⟨Settings.default, _, _, _, h_video, h_container, by simp [Step.Proper], rfl⟩
  -- the three hypotheses that say that a limit does not interfere
  have h_three : ¬ v.Cuts 3 := by
    unfold Cuts
    decide +kernel
  have h_two : ¬ (v.zoomAt corner 3).Cuts 2 := by
    unfold Cuts
    decide +kernel
  have h_there : ¬ v.Cuts (v.zoomStep ^ (-5 : ℤ)) := by
    unfold Cuts
    rw [← power_eq_zpow]
    decide +kernel
  have h_back : ¬ (v.wheel corner (-5)).Cuts (v.zoomStep ^ (-(-5) : ℤ)) := by
    unfold Cuts
    rw [← power_eq_zpow]
    decide +kernel
  obtain ⟨h_anchor, h_product, h_wheel⟩ := zoomAt_laws h_reachable corner
  refine ⟨h_reachable, by norm_num, ?_, h_anchor 100 (by norm_num), by norm_num, by norm_num,
    h_three, h_two, h_product 3 2 (by norm_num) (by norm_num) h_three h_two, h_there, h_back,
    h_wheel (-5) h_there h_back⟩
  unfold Cuts
  decide +kernel

end Viewport

end ClipEdit
