import ClipEdit.Proofs.Preview.Limits

/-!
# A viewport is one affine map

A viewport converts in four ways: points of the video to the screen and back, distances on the
screen to distances in the video, and crops to boxes on the screen. Each conversion works out the
scale and the origin for itself. In a sound viewport the scale is positive
(`Sound.zero_lt_scale`), and then all of them describe the one map `p ↦ origin + scale * p`, its
inverse, the linear part of the inverse, and the image of a box: `conversions_agree`.
-/

namespace ClipEdit

open Scalar Exact

attribute [ext] Point

namespace Viewport

variable {v : Viewport ℚ}

/-! ### The scale -/

/-- A video with an extent fits a container with an extent at some positive scale. -/
theorem Sound.zero_lt_fitScale (h : v.Sound) : 0 < v.fitScale := by
  unfold fitScale
  rw [atMost_eq_min]
  exact lt_min (div_pos h.container.width h.video.width)
    (div_pos h.container.height h.video.height)

theorem Sound.zero_lt_scale (h : v.Sound) : 0 < v.scale :=
  mul_pos h.zero_lt_fitScale h.zero_lt_zoom

/-! ### There and back -/

/-- From the screen to the video and back again. -/
theorem toScreen_toVideo (h_scale : v.scale ≠ 0) (p : Point .screen ℚ) :
    v.toScreen (v.toVideo p) = p := by
  ext
  · show v.origin.x + (p.x - v.origin.x) / v.scale * v.scale = p.x
    rw [div_mul_cancel₀ _ h_scale, add_sub_cancel]
  · show v.origin.y + (p.y - v.origin.y) / v.scale * v.scale = p.y
    rw [div_mul_cancel₀ _ h_scale, add_sub_cancel]

/-- From the video to the screen and back again. -/
theorem toVideo_toScreen (h_scale : v.scale ≠ 0) (p : Point .video ℚ) :
    v.toVideo (v.toScreen p) = p := by
  ext
  · show (v.origin.x + p.x * v.scale - v.origin.x) / v.scale = p.x
    rw [add_sub_cancel_left, mul_div_cancel_right₀ _ h_scale]
  · show (v.origin.y + p.y * v.scale - v.origin.y) / v.scale = p.y
    rw [add_sub_cancel_left, mul_div_cancel_right₀ _ h_scale]

/-- **Distances**: the origin drops out, so a difference of two points is converted without it. No
scale is too small for this. -/
theorem deltaToVideo_sub (v : Viewport ℚ) (p q : Point .screen ℚ) :
    v.deltaToVideo (p - q) = v.toVideo p - v.toVideo q := by
  ext
  · show (p.x - q.x) / v.scale = (p.x - v.origin.x) / v.scale - (q.x - v.origin.x) / v.scale
    rw [← sub_div, sub_sub_sub_cancel_right]
  · show (p.y - q.y) / v.scale = (p.y - v.origin.y) / v.scale - (q.y - v.origin.y) / v.scale
    rw [← sub_div, sub_sub_sub_cancel_right]

/-- **Boxes**: the corner opposite the origin is the image of the crop's. -/
theorem bottomRight_cropToScreen (v : Viewport ℚ) (c : Crop ℚ) :
    (v.cropToScreen c).bottomRight = v.toScreen ⟨c.right, c.bottom⟩ := by
  ext
  · show v.origin.x + c.x * v.scale + c.width * v.scale = v.origin.x + (c.x + c.width) * v.scale
    rw [add_mul, add_assoc]
  · show v.origin.y + c.y * v.scale + c.height * v.scale = v.origin.y + (c.y + c.height) * v.scale
    rw [add_mul, add_assoc]

/-- **The conversions of a reachable viewport agree.** Points go to the video and back unchanged and
the other way round; the difference of two points of the screen is converted to the difference of
their points of the video; and the box of a crop has the images of the crop's corners. -/
theorem conversions_agree (h : v.Reachable) :
    (∀ p, v.toScreen (v.toVideo p) = p) ∧ (∀ p, v.toVideo (v.toScreen p) = p) ∧
      (∀ p q, v.deltaToVideo (p - q) = v.toVideo p - v.toVideo q) ∧
      (∀ c : Crop ℚ, (v.cropToScreen c).origin = v.toScreen ⟨c.x, c.y⟩ ∧
        (v.cropToScreen c).bottomRight = v.toScreen ⟨c.right, c.bottom⟩) := by
  have h_scale : v.scale ≠ 0 := h.sound.zero_lt_scale.ne'
  refine ⟨toScreen_toVideo h_scale, toVideo_toScreen h_scale, v.deltaToVideo_sub, ?_⟩
  intro c
  exact ⟨rfl, v.bottomRight_cropToScreen c⟩

/-- A wide video in a square container, zoomed to 2 about a corner, shifted, and then shown in a
container of another size. -/
theorem conversions_agree_of_resized :
    let v := (fit (Settings.validate Settings.default) ⟨1920, 1080⟩ ⟨960, 960⟩).run
      [.zoomAt ⟨960, 0⟩ 2, .panBy ⟨30, -7⟩, .resizeContainer ⟨480, 480⟩]
    v.Reachable ∧ v.scale = 1 / 2 ∧ v.toScreen ⟨100, 60⟩ = ⟨-640, 473⟩ ∧
      v.toVideo (v.toScreen ⟨100, 60⟩) = ⟨100, 60⟩ := by
  intro v
  have h_video : (⟨1920, 1080⟩ : Size .video ℚ).Positive := ⟨by norm_num, by norm_num⟩
  have h_container : (⟨960, 960⟩ : Size .screen ℚ).Positive := ⟨by norm_num, by norm_num⟩
  have h_resized : (⟨480, 480⟩ : Size .screen ℚ).Positive := ⟨by norm_num, by norm_num⟩
  have h_reachable : v.Reachable :=
    ⟨Settings.default, _, _, _, h_video, h_container, by simpa [Step.Proper] using h_resized, rfl⟩
  exact ⟨h_reachable, by decide +kernel, by decide +kernel,
    (conversions_agree h_reachable).2.1 ⟨100, 60⟩⟩

end Viewport

end ClipEdit
