import ClipEdit.Proofs.Overlay.Constrain
import ClipEdit.Proofs.Scalar.Extended

/-!
# Overlays that hold no numbers

A preview that has not been laid out yet has no extent. Its scale is no positive number, and a
pointer over it may ask for an overlay at an infinite place, or at none. Such an overlay goes
through `constrain` as any other, and nothing is made of it that is not a number.

In a frame with finite sides, whatever the geometry of an overlay holds is brought to where some
overlay of numbers would be brought (`Crop.exists_given`, `Highlight.exists_given`): each number of
the result was clamped between finite ends, and the ends of a position are made of a size that has
been settled by then. So all that is known of overlays of numbers carries over, and in a frame with
room for overlays the result lies inside it (`constrain_sanitizes`). The opacity of a highlight is
no geometry and is not looked at.
-/

namespace ClipEdit

open Scalar Extended

/-! ### Numbers as extended scalars -/

/-- A size of finite sides. -/
def Size.extended {plane : Plane} (size : Size plane ℚ) : Size plane Extended :=
  ⟨finite size.width, finite size.height⟩

/-- A crop of finite numbers. -/
def Crop.extended (c : Crop ℚ) : Crop Extended :=
  ⟨finite c.x, finite c.y, finite c.width, finite c.height⟩

/-- A highlight of finite numbers. -/
def Highlight.extended (h : Highlight ℚ) : Highlight Extended :=
  ⟨finite h.x, finite h.y, finite h.radiusX, finite h.radiusY, finite h.opacity, h.color⟩

/-! ### What is brought into the frame -/

/-- **Any crop is brought where a crop of numbers would be brought.** -/
theorem Crop.exists_given (frame : Size .video ℚ) (c : Crop Extended) :
    ∃ given : Crop ℚ, c.constrain frame.extended = (given.constrain frame).extended := by
  have h_min : (minSize : Extended) = finite minSize := rfl
  have h_zero : (0 : Extended) = finite 0 := rfl
  -- the size first: the room for the position is what it leaves of the frame
  let width := c.width.standIn minSize frame.width
  let height := c.height.standIn minSize frame.height
  let roomX := atLeast (frame.width - roundMilli (within width minSize frame.width)) 0
  let roomY := atLeast (frame.height - roundMilli (within height minSize frame.height)) 0
  refine ⟨⟨c.x.standIn 0 roomX, c.y.standIn 0 roomY, width, height⟩, ?_⟩
  simp only [constrain, Size.extended, h_min, h_zero, Extended.roundMilli_within, finite_sub,
    atLeast_finite]
  rfl

/-- **Any highlight is brought where a highlight of numbers would be brought.** Its style is what it
was, also when its opacity is no number. -/
theorem Highlight.exists_given (frame : Size .video ℚ) (h : Highlight Extended) :
    ∃ given : Highlight ℚ, h.constrain frame.extended =
      { (given.constrain frame).extended with opacity := h.opacity, color := h.color } := by
  have h_min : (minRadiusX : Extended) = finite minRadiusX := rfl
  have h_min' : (minRadiusY : Extended) = finite minRadiusY := rfl
  have h_half : ∀ side : ℚ, (finite side / 2.0 : Extended) = finite (side / 2.0) := by
    intro side
    exact finite_div side (by norm_num : (2.0 : ℚ) ≠ 0)
  -- the radii first: the centre is kept away from the edges by what they come to
  let radiusX := h.radiusX.standIn minRadiusX (frame.width / 2.0)
  let radiusY := h.radiusY.standIn minRadiusY (frame.height / 2.0)
  let left := roundMilli (within radiusX minRadiusX (frame.width / 2.0))
  let top := roundMilli (within radiusY minRadiusY (frame.height / 2.0))
  refine ⟨⟨h.x.standIn left (frame.width - left), h.y.standIn top (frame.height - top), radiusX,
    radiusY, 0, h.color⟩, ?_⟩
  simp only [constrain, Size.extended, h_min, h_min', h_half, Extended.roundMilli_within,
    finite_sub]
  rfl

/-- **Nothing but numbers leaves `constrain`**, in a frame with room for overlays. Whatever numbers,
infinities and non-numbers the geometry of a crop or a highlight holds, it comes out as finite
thousandths, inside the frame and not smaller than allowed, and the style of the highlight as it
was. -/
theorem constrain_sanitizes {frame : Size .video ℚ} (h_room : frame.HasRoom) (c : Crop Extended)
    (h : Highlight Extended) :
    (∃ c' : Crop ℚ, c.constrain frame.extended = c'.extended ∧ c'.Inside frame ∧
        Exact.IsMilli c'.x ∧ Exact.IsMilli c'.y ∧
        Exact.IsMilli c'.width ∧ Exact.IsMilli c'.height) ∧
      ∃ h' : Highlight ℚ, h.constrain frame.extended =
          { h'.extended with opacity := h.opacity, color := h.color } ∧ h'.Inside frame ∧
        Exact.IsMilli h'.x ∧ Exact.IsMilli h'.y ∧
        Exact.IsMilli h'.radiusX ∧ Exact.IsMilli h'.radiusY := by
  constructor
  · -- what is no number, or too large for one, is brought into the frame as some rational would be
    obtain ⟨given, h_eq⟩ := Crop.exists_given frame c
    have h_framed : (given.constrain frame).Framed frame := ⟨given, rfl⟩
    exact ⟨_, h_eq, h_room.crop_inside h_framed, h_framed.isMilli⟩
  · obtain ⟨given, h_eq⟩ := Highlight.exists_given frame h
    have h_framed : (given.constrain frame).Framed frame := ⟨given, rfl⟩
    exact ⟨_, h_eq, h_room.highlight_inside h_framed, h_framed.isMilli⟩

/-- A crop and a highlight with every kind of value in them, in a small frame. -/
theorem constrain_sanitizes_of_every_kind :
    (∃ c : Crop ℚ, (⟨nan, infinite false, infinite true, finite 7⟩ : Crop Extended).constrain
        (⟨64, 48⟩ : Size .video ℚ).extended = c.extended ∧ c.Inside ⟨64, 48⟩) ∧
      (∃ h : Highlight ℚ, (⟨infinite true, nan, infinite false, nan, nan, "#000000"⟩ :
          Highlight Extended).constrain (⟨64, 48⟩ : Size .video ℚ).extended =
          { h.extended with opacity := nan, color := "#000000" } ∧ h.Inside ⟨64, 48⟩) ∧
      (⟨nan, infinite false, infinite true, finite 7⟩ : Crop Extended).constrain
        (⟨64, 48⟩ : Size .video ℚ).extended = (⟨0, 38, 10, 10⟩ : Crop ℚ).extended ∧
      (⟨infinite true, nan, infinite false, nan, nan, "#000000"⟩ : Highlight Extended).constrain
        (⟨64, 48⟩ : Size .video ℚ).extended =
        ⟨finite 32, finite 15, finite 32, finite 15, nan, "#000000"⟩ := by
  -- sides in thousandths, with halves in thousandths, too
  have h_room : (⟨64, 48⟩ : Size .video ℚ).HasRoom :=
    ⟨⟨32000, by norm_num⟩, ⟨24000, by norm_num⟩, by norm_num, by norm_num⟩
  obtain ⟨⟨c, h_crop, h_inside, -⟩, h, h_highlight, h_inside', -⟩ := constrain_sanitizes h_room
    ⟨nan, infinite false, infinite true, finite 7⟩
    ⟨infinite true, nan, infinite false, nan, nan, "#000000"⟩
  exact ⟨⟨c, h_crop, h_inside⟩, ⟨h, h_highlight, h_inside'⟩, by decide +kernel, by decide +kernel⟩

end ClipEdit
