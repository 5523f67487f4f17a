import ClipEdit.Proofs.Overlay.Constrain
import ClipEdit.Proofs.Track.KeyMap
import ClipEdit.Proofs.Track.Preview

/-!
# The curve of a track

The value that a track shows runs through its keyframes, and from one to the next in a straight line.
`DrawsCurve` says this about all frames at once, with no scan and no case of the code in it:

* on a keyframe the value is the one that can be looked up there, and that is the value which the
  renderer is given, the end included, whose stored value is not looked at;
* from the end on it is the value at the end;
* strictly between two neighbours it lies on the line from one to the other;
* every frame is one of these.

What a line is depends on the values. All numbers of a crop run straight, and so do those of a
highlight, whose colour stays that of the keyframe before (`Crop.OnLine`, `Highlight.OnLine`).

The scan and the look-up find the end in two places: the one reads the value stored there, the other
the start as long as the end follows it. They agree for a track that stands for a key map, and so for
all tracks that commands lead to (`tracks_drawCurve`).

Everything here is about exact arithmetic.
-/

namespace ClipEdit

/-! ### Lines -/

/-- **A number on a line**: a fraction `s` of the way from `p` to `q`, and so between the two. -/
structure OnLine (p q s r : ℚ) : Prop where
  eq : r = p + (q - p) * s
  min_le : min p q ≤ r
  le_max : r ≤ max p q

/-- The line is what numbers are blended along. -/
theorem OnLine.blend (p q : ℚ) {s : ℚ} (h_nonneg : 0 ≤ s) (h_le_one : s ≤ 1) :
    OnLine p q s (Scalar.blend p q s) where
  eq := rfl
  min_le := le_blend (min_le_left p q) (min_le_right p q) h_nonneg h_le_one
  le_max := blend_le (le_max_left p q) (le_max_right p q) h_nonneg h_le_one

/-- A crop on the line from `a` to `b`, in every number. -/
structure Crop.OnLine (a b : Crop ℚ) (s : ℚ) (c : Crop ℚ) : Prop where
  x : ClipEdit.OnLine a.x b.x s c.x
  y : ClipEdit.OnLine a.y b.y s c.y
  width : ClipEdit.OnLine a.width b.width s c.width
  height : ClipEdit.OnLine a.height b.height s c.height

/-- A highlight on the line from `a` to `b`, in every number; its colour is that of `a`. -/
structure Highlight.OnLine (a b : Highlight ℚ) (s : ℚ) (h : Highlight ℚ) : Prop where
  x : ClipEdit.OnLine a.x b.x s h.x
  y : ClipEdit.OnLine a.y b.y s h.y
  radiusX : ClipEdit.OnLine a.radiusX b.radiusX s h.radiusX
  radiusY : ClipEdit.OnLine a.radiusY b.radiusY s h.radiusY
  opacity : ClipEdit.OnLine a.opacity b.opacity s h.opacity
  color_eq : h.color = a.color

theorem Crop.OnLine.blend (a b : Crop ℚ) {s : ℚ} (h_nonneg : 0 ≤ s) (h_le_one : s ≤ 1) :
    a.OnLine b s (Blend.blend a b s) where
  x := .blend a.x b.x h_nonneg h_le_one
  y := .blend a.y b.y h_nonneg h_le_one
  width := .blend a.width b.width h_nonneg h_le_one
  height := .blend a.height b.height h_nonneg h_le_one

theorem Highlight.OnLine.blend (a b : Highlight ℚ) {s : ℚ} (h_nonneg : 0 ≤ s) (h_le_one : s ≤ 1) :
    a.OnLine b s (Blend.blend a b s) where
  x := .blend a.x b.x h_nonneg h_le_one
  y := .blend a.y b.y h_nonneg h_le_one
  radiusX := .blend a.radiusX b.radiusX h_nonneg h_le_one
  radiusY := .blend a.radiusY b.radiusY h_nonneg h_le_one
  opacity := .blend a.opacity b.opacity h_nonneg h_le_one
  color_eq := rfl

namespace Track

variable {V : Type} [Blend ℚ V] {Line : V → V → ℚ → V → Prop}

/-! ### The curve -/

/-- **A track that draws the curve through its keyframes**, from each to the next along a line. -/
structure DrawsCurve (Line : V → V → ℚ → V → Prop) (t : Track V) : Prop where
  get?_frame : ∀ k ∈ t.shown, t.get? k.frame = some k.value
  at_key : ∀ frame ∈ t.frames, t.get? frame = some (t.sample frame)
  past_end : ∀ frame, t.endFrame ≤ frame → t.sample frame = t.endValue
  between : ∀ a b frame, Neighbours t.shown a b → a.frame < frame → frame < b.frame →
    Line a.value b.value (((frame : ℚ) - a.frame) / ((b.frame : ℚ) - a.frame)) (t.sample frame)
  covered : ∀ frame, frame ∈ t.frames ∨ t.endFrame < frame ∨
    ∃ a b, Neighbours t.shown a b ∧ a.frame < frame ∧ frame < b.frame

/-- A track shows something at a frame because a keyframe stands there or two neighbours around
it. -/
theorem mem_frames_or_neighbours {t : Track V} {frame : Frame} {v : V}
    (h : Interpolates t.shown frame v) :
    frame ∈ t.frames ∨ ∃ a b, Neighbours t.shown a b ∧ a.frame < frame ∧ frame < b.frame := by
  cases h with
  | here h_mem h_at =>
    rw [← map_frame_shown, ← h_at]
    exact Or.inl (List.mem_map_of_mem h_mem)
  | between h_near h_left h_right => exact Or.inr ⟨_, _, h_near, h_left, h_right⟩

/-- **A track that stands for a key map draws the curve through its keyframes**, along whatever its
values are blended along. -/
theorem Refines.drawsCurve {t : Track V} {m : KeyMap V} (h : t.Refines m)
    (h_line : ∀ a b s, 0 ≤ s → s ≤ 1 → Line a b s (Blend.blend a b s)) : t.DrawsCurve Line := by
  have h_ascending : Ascending t.shown := (h.sound.runsTo t.map_frame_shown).ascending
  have h_frames : ∀ k ∈ t.shown, k.frame ∈ t.frames := by
    intro k h_mem
    rw [← map_frame_shown]
    exact List.mem_map_of_mem h_mem
  have h_found : ∀ frame ∈ t.frames, ∃ value, t.get? frame = some value := by
    intro frame h_mem
    obtain ⟨h_some, h_contains⟩ := h.agrees.isSome_get? frame
    exact Option.isSome_iff_exists.mp (h_some.mpr (h_contains.mpr h_mem))
  refine ⟨?_, ?_, ?_, ?_, ?_⟩
  · intro k h_mem
    obtain ⟨value, h_get⟩ := h_found k.frame (h_frames k h_mem)
    -- what is found is shown too, and only one value is shown at a frame
    have h_eq : k = ⟨k.frame, value⟩ :=
      h_ascending.eq_of_frame_eq h_mem (h.sound.mem_shown h_get) rfl
    rw [h_get, congrArg FrameValue.value h_eq]
  · intro frame h_mem
    obtain ⟨value, h_get⟩ := h_found frame h_mem
    rw [h_get, h.sound.sample_eq_of_get? h_get]
  · intro frame h_le
    rw [sample, if_pos h_le]
  · intro a b frame h_near h_left h_right
    have h_le : frame ≤ t.endFrame :=
      h_right.le.trans (h.sound.le_endFrame _ (h_frames b h_near.mem_right))
    -- only one value is interpolated at a frame, and a blend of the neighbours is
    have h_sample := (h.sound.interpolates_sample h_le).unique h_ascending
      (.between h_near h_left h_right)
    obtain ⟨h_nonneg, h_le_one⟩ := weight_mem h_left h_right
    rw [h_sample]
    exact h_line _ _ _ h_nonneg h_le_one
  · intro frame
    -- every frame is a keyframe's, lies past the end or lies between two keyframes
    rcases le_or_gt frame t.endFrame with h_le | h_gt
    · rcases mem_frames_or_neighbours (h.sound.interpolates_sample h_le) with h_mem | h_between
      · exact Or.inl h_mem
      · exact Or.inr (Or.inr h_between)
    · exact Or.inr (Or.inl h_gt)

/-- **Tracks draw the curve through their keyframes**, whatever has been asked of them: those of crops
and those of highlights. -/
theorem tracks_drawCurve :
    (∀ (initial : Crop ℚ) (lastFrame : Frame) (commands : List (Command (Crop ℚ))),
      (Outcome.runAll perform (create initial lastFrame) commands).2.DrawsCurve Crop.OnLine) ∧
    ∀ (initial : Highlight ℚ) (lastFrame : Frame) (commands : List (Command (Highlight ℚ))),
      (Outcome.runAll perform (create initial lastFrame) commands).2.DrawsCurve
        Highlight.OnLine := by
  constructor
  · intro initial lastFrame commands
    obtain ⟨-, h_refines⟩ := (Refines.create initial lastFrame).runAll commands
    exact h_refines.drawsCurve fun a b _ => Crop.OnLine.blend a b
  · intro initial lastFrame commands
    obtain ⟨-, h_refines⟩ := (Refines.create initial lastFrame).runAll commands
    exact h_refines.drawsCurve fun a b _ => Highlight.OnLine.blend a b

/-- The end follows the start to `⟨8, 0, 4, 4⟩`, and the last segment leads there. -/
example : (Outcome.runAll perform (create ⟨0, 0, 4, 4⟩ 10)
    [.add 6 ⟨2, 2, 4, 4⟩, .add 0 (⟨8, 0, 4, 4⟩ : Crop ℚ)]).2.sample 7 = ⟨7 / 2, 3 / 2, 4, 4⟩ := by
  decide +kernel

end Track

end ClipEdit
