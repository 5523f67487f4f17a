import ClipEdit.Proofs.Clip.Payload

/-!
# What rounding does to a payload

The renderer gets thousandths, and a thousandth is not always what the editor made sure of. In exact
arithmetic, for every clip that edits lead to:

* **speeds** — a timeline has positive speeds only, since no edit makes a speed up but `setSpeed`,
  which checks it (`Timeline.speed_apply`, `speeds_run`). The payload shows a speed as positive from
  half a thousandth on, and as zero below that: `exported_speed_pos_iff`;
* **crops** — a crop is held inside the frame before it is rounded. The payload has it inside the
  frame as that is rounded, which may be larger: `exported_crop_inside_iff`.

Both are exact: the first says which speeds are lost, the second for which frames crops stay inside.
-/

namespace ClipEdit

open Scalar Exact

/-! ### Speeds -/

section Speeds

variable {α : Type} [Scalar α]

namespace Timeline

variable {t : Timeline α} {x : Span α}

/-- Both halves keep the speed. -/
theorem speed_addBoundary {time : α} (hx : x ∈ (t.addBoundary time).state.spans) :
    ∃ s ∈ t.spans, x.speed = s.speed := by
  rcases t.addBoundary_cases time with h_eq | ⟨a, s, b, h_spans, -, -, -, h_eq⟩
  · rw [h_eq] at hx
    exact ⟨x, hx, rfl⟩
  · rw [h_eq] at hx
    rw [h_spans]
    simp only [Span.cut, Outcome.state_accept, List.mem_append, List.mem_cons,
      List.not_mem_nil, or_false] at hx ⊢
    -- both halves have the speed of the span that was cut
    rcases hx with (hx | rfl | rfl) | hx
    · exact ⟨x, Or.inl hx, rfl⟩
    · exact ⟨s, Or.inr (Or.inl rfl), rfl⟩
    · exact ⟨s, Or.inr (Or.inl rfl), rfl⟩
    · exact ⟨x, Or.inr (Or.inr hx), rfl⟩

/-- Either policy takes the speed of one of the two spans that are joined. -/
theorem speed_removeBoundary {time : α} (hx : x ∈ (t.removeBoundary time).state.spans) :
    ∃ s ∈ t.spans, x.speed = s.speed := by
  rcases t.removeBoundary_cases time with h_eq | ⟨a, l, r, b, h_spans, -, -, -, h_eq⟩
  · rw [h_eq] at hx
    exact ⟨x, hx, rfl⟩
  · rw [h_eq] at hx
    rw [h_spans]
    simp only [Outcome.state_accept, List.mem_append, List.mem_cons] at hx ⊢
    rcases hx with hx | rfl | hx
    · exact ⟨x, Or.inl hx, rfl⟩
    · -- the joined span has the speed of the one that the policy keeps
      cases t.mergePolicy
      · exact ⟨l, Or.inr (Or.inl rfl), by rw [Span.join]⟩
      · exact ⟨r, Or.inr (Or.inr (Or.inl rfl)), by rw [Span.join]⟩
    · exact ⟨x, Or.inr (Or.inr (Or.inr hx)), rfl⟩

/-- The speed that is set was checked. -/
theorem speed_setSpeed {index : Nat} {speed : α}
    (hx : x ∈ (t.setSpeed index speed).state.spans) :
    (∃ s ∈ t.spans, x.speed = s.speed) ∨
      (x.speed = speed ∧ isFinite speed = true ∧ ¬ speed ≤ 0) := by
  rcases t.setSpeed_cases index speed with h_eq | ⟨a, s, b, h_spans, -, h_fin, h_not, h_eq⟩
  · rw [h_eq] at hx
    exact .inl ⟨x, hx, rfl⟩
  · rw [h_eq] at hx
    simp only [Outcome.state_accept, List.mem_append, List.mem_cons] at hx
    rcases hx with hx | rfl | hx
    · exact .inl ⟨x, by simp [h_spans, hx], rfl⟩
    · exact .inr ⟨rfl, h_fin, h_not⟩
    · exact .inl ⟨x, by simp [h_spans, hx], rfl⟩

omit [Scalar α] in
/-- The flag of a span is not its speed. -/
theorem speed_of_mark {t' : Timeline α}
    (h : t'.spans = t.spans ∨ ∃ i v, t'.spans = t.mark i v) (hx : x ∈ t'.spans) :
    ∃ s ∈ t.spans, x.speed = s.speed := by
  rcases h with h_eq | ⟨i, v, h_eq⟩
  · exact ⟨x, h_eq ▸ hx, rfl⟩
  · have h_mem : x.speed ∈ t'.spans.map Span.speed := List.mem_map_of_mem hx
    rw [h_eq, map_mark fun _ _ => rfl] at h_mem
    obtain ⟨s, hs, h_speed⟩ := List.mem_map.mp h_mem
    exact ⟨s, hs, h_speed.symm⟩

/-- **No edit makes a speed up** but `setSpeed`, and that one has checked it. -/
theorem speed_apply (t : Timeline α) (e : Edit α) (hx : x ∈ (t.apply e).state.spans) :
    (∃ s ∈ t.spans, x.speed = s.speed) ∨
      ∃ i, e = .setSpeed i x.speed ∧ isFinite x.speed = true ∧ ¬ x.speed ≤ 0 := by
  cases e with
  | addBoundary time => exact .inl (speed_addBoundary hx)
  | removeBoundary time => exact .inl (speed_removeBoundary hx)
  | setSpeed index speed =>
    rcases speed_setSpeed hx with h_kept | ⟨rfl, h_fin, h_not⟩
    · exact .inl h_kept
    · exact .inr ⟨index, rfl, h_fin, h_not⟩
  | trim index => exact .inl (speed_of_mark (t.trim_spans index) hx)
  | detrim side => exact .inl (speed_of_mark (t.detrim_spans side) hx)

end Timeline

namespace Clip

/-- An edit of a clip edits its timeline, or does not touch it. -/
theorem timeline_apply (c : Clip α) (e : Edit α) :
    (c.apply e).state.timeline = c.timeline ∨
      ∃ edit, e = .timeline edit ∧ (c.apply e).state.timeline = (c.timeline.apply edit).state := by
  cases e with
  | timeline edit => exact .inr ⟨edit, rfl, rfl⟩
  | setRatio ratio frame =>
    left
    -- the ratio is stored, and perhaps a crop
    rw [apply, setRatio]
    split
    · rfl
    · dsimp only
      split <;> rfl
  | setHighlightDuration seconds =>
    left
    -- refused or stored
    rw [apply, setHighlightDuration]
    split <;> rfl
  | _ => exact .inl rfl

/-- **What holds of all speeds of a run**: it held of those at the beginning, and it holds of those
that the run sets and that are not refused. -/
theorem speeds_run {P : α → Prop} {c : Clip α} (h : ∀ s ∈ c.timeline.spans, P s.speed)
    (edits : List (Edit α))
    (h_set : ∀ i v, .timeline (.setSpeed i v) ∈ edits → isFinite v = true → ¬ v ≤ 0 → P v) :
    ∀ s ∈ (c.run edits).timeline.spans, P s.speed := by
  induction edits generalizing c with
  | nil => exact h
  | cons e rest ih =>
    -- one step: a speed is kept, or it is one that an edit sets
    refine ih ?_ fun i v h_mem => h_set i v (List.mem_cons_of_mem e h_mem)
    intro x hx
    rcases c.timeline_apply e with h_eq | ⟨edit, rfl, h_eq⟩
    · exact h x (h_eq ▸ hx)
    · rw [h_eq] at hx
      rcases c.timeline.speed_apply edit hx with ⟨s, hs, h_speed⟩ | ⟨i, rfl, h_fin, h_not⟩
      · rw [h_speed]
        exact h s hs
      · exact h_set i x.speed List.mem_cons_self h_fin h_not

end Clip

end Speeds

namespace Clip

variable {settings : Settings ℚ} {metadata : Metadata ℚ} {fps : Nat} {c c₀ : Clip ℚ}

/-- A clip is loaded at normal speed. -/
theorem speeds_of_load (h : load settings metadata fps = .ok c₀) :
    ∀ s ∈ c₀.timeline.spans, s.speed = 1 := by
  obtain ⟨-, -, timeline, h_timeline, rfl⟩ := load_eq_ok h
  obtain ⟨-, -, rfl⟩ := Timeline.create_eq_ok h_timeline
  intro s hs
  obtain rfl := List.mem_singleton.mp hs
  norm_num

/-- **Exported speeds.** Whatever is done to a clip, all its speeds are positive. The payload has the
spans in their order, no speed is further off than half a thousandth, and none is negative; a speed
is exported as positive exactly if it is half a thousandth or more. So the renderer gets positive
speeds only, if no smaller one is ever set. -/
theorem exported_speed_pos_iff (h : load settings metadata fps = .ok c₀) (edits : List (Edit ℚ)) :
    (c₀.run edits).payload.timeline.spans.length = (c₀.run edits).timeline.spans.length ∧
      (∀ (i : Nat) (s : Span ℚ) (e : SpanExport ℚ), (c₀.run edits).timeline.spans[i]? = some s →
        (c₀.run edits).payload.timeline.spans[i]? = some e →
          0 < s.speed ∧ 0 ≤ e.speed ∧ |e.speed - s.speed| ≤ 0.0005 ∧
            (0 < e.speed ↔ 0.0005 ≤ s.speed)) ∧
      ((∀ i v, .timeline (.setSpeed i v) ∈ edits → 0 < v → 0.0005 ≤ v) →
        ∀ e ∈ (c₀.run edits).payload.timeline.spans, 0 < e.speed) := by
  have h_half : (0.0005 : ℚ) = 1 / 2000 := by norm_num
  have h_spans : (c₀.run edits).payload.timeline.spans
      = (c₀.run edits).timeline.spans.map Export.ofSpan := rfl
  -- speeds are positive from the start, and no edit sets one that is not
  have h_pos : ∀ s ∈ (c₀.run edits).timeline.spans, 0 < s.speed := by
    refine speeds_run (fun s hs => ?_) edits fun _ v _ _ h_not => not_le.mp h_not
    rw [speeds_of_load h s hs]
    exact one_pos
  rw [h_spans, h_half]
  refine ⟨List.length_map .., ?_, ?_⟩
  · -- an exported speed is that of its span, rounded to thousandths
    intro i s e hs he
    rw [List.getElem?_map, hs, Option.map_some, Option.some.injEq] at he
    subst he
    have h_speed := h_pos s (List.mem_of_getElem? hs)
    exact ⟨h_speed, roundMilli_nonneg h_speed.le, abs_roundMilli_sub_le s.speed, roundMilli_pos_iff⟩
  · -- from half a thousandth on nothing is lost, and a loaded clip plays at normal speed
    intro h_set e he
    obtain ⟨s, hs, rfl⟩ := List.mem_map.mp he
    refine roundMilli_pos_iff.mpr (speeds_run (P := fun v => 1 / 2000 ≤ v) ?_ edits ?_ s hs)
    · intro s hs
      rw [speeds_of_load h s hs]
      norm_num
    · exact fun i v h_mem _ h_not => h_set i v h_mem (not_le.mp h_not)

/-- A clip that is slowed down as far as the payload can tell, cut, and joined again: the policy
keeps the speed of the right half. -/
theorem exported_speed_pos_iff_of_join :
    ∃ c₀ : Clip ℚ, load .default ⟨1920, 1080, 10⟩ 30 = .ok c₀ ∧
      (∀ i v, (.timeline (.setSpeed i v) : Edit ℚ) ∈ [.timeline (.setSpeed 0 0.0005),
        .timeline (.addBoundary 4), .timeline (.setSpeed 0 2), .timeline (.removeBoundary 4)] →
          0 < v → 0.0005 ≤ v) ∧
      ∀ e ∈ (c₀.run [.timeline (.setSpeed 0 0.0005), .timeline (.addBoundary 4),
        .timeline (.setSpeed 0 2), .timeline (.removeBoundary 4)]).payload.timeline.spans,
          0 < e.speed := by
  have h : load .default ⟨1920, 1080, 10⟩ 30 = .ok (loaded (⟨1920, 1080, 10⟩ : Metadata ℚ) 30
      ⟨10, [⟨0, 10, 1.0, false⟩], [], 0.01, .keepRight⟩) :=
    load_of_valid (by decide +kernel) (by decide) (by decide +kernel)
  -- of the two speeds that are set, the smaller one is just large enough
  have h_set : ∀ i v, (.timeline (.setSpeed i v) : Edit ℚ) ∈ [.timeline (.setSpeed 0 0.0005),
      .timeline (.addBoundary 4), .timeline (.setSpeed 0 2), .timeline (.removeBoundary 4)] →
        0 < v → 0.0005 ≤ v := by
    intro i v h_mem _
    simp only [List.mem_cons, Edit.timeline.injEq, Timeline.Edit.setSpeed.injEq, reduceCtorEq,
      List.not_mem_nil, or_false, false_or] at h_mem
    rcases h_mem with ⟨-, rfl⟩ | ⟨-, rfl⟩ <;> norm_num
  exact ⟨_, h, h_set, (exported_speed_pos_iff h _).2.2 h_set⟩

/-- Four ten-thousandths are a speed, and the payload has a span that stands still. -/
theorem exported_speed_not_pos :
    ∃ c : Clip ℚ, c.Reachable .default ⟨1920, 1080, 2⟩ 30 ∧ (∀ s ∈ c.timeline.spans, 0 < s.speed) ∧
      ¬ ∀ e ∈ c.payload.timeline.spans, 0 < e.speed :=
  ⟨run (loaded ⟨1920, 1080, 2⟩ 30 ⟨2, [⟨0, 2, 1.0, false⟩], [], 0.01, .keepRight⟩)
      [.timeline (.setSpeed 0 0.0004)],
    ⟨_, _, load_of_valid (by decide +kernel) (by decide) (by decide +kernel), rfl⟩,
    by decide +kernel, by decide +kernel⟩

end Clip

/-! ### Crops -/

namespace Crop

variable {frame : Size .video ℚ} {c : Crop ℚ}

/-- A position that is clamped into the room that a rounded size leaves in a side. A size that was
rounded beyond the side leaves no room, and is all that counts. -/
theorem position_inside_rounded {side size : ℚ} (h_size : 0 ≤ size) (h_milli : IsMilli size)
    (h_le : size ≤ roundMilli side) (position : ℚ) :
    0 ≤ roundMilli (within position 0 (atLeast (side - size) 0)) ∧
      roundMilli (within position 0 (atLeast (side - size) 0)) + size ≤ roundMilli side := by
  have h_nonneg : 0 ≤ within position 0 (atLeast (side - size) 0) := by
    rw [atLeast_eq_max]
    exact le_within (le_max_right _ _) position
  refine ⟨roundMilli_nonneg h_nonneg, ?_⟩
  rw [atLeast_eq_max]
  rcases le_or_gt size side with h_room | h_none
  · have h_room' : 0 ≤ side - size := sub_nonneg.mpr h_room
    rw [max_eq_left h_room']
    -- there is room beside the size, and a size in thousandths may be added before rounding
    calc roundMilli (within position 0 (side - size)) + size
        ≤ roundMilli (side - size) + size :=
          add_le_add_left (monotone_roundMilli (within_le _ _ _)) size
      _ = roundMilli (side - size + size) := (roundMilli_add h_room' h_size h_milli).symm
      _ = roundMilli side := by rw [sub_add_cancel]
  · -- there is none, so the position is zero
    have h_zero : within position 0 0 = 0 := by
      rw [within_eq, min_eq_right (le_max_right _ _)]
    rw [max_eq_right (sub_neg.mpr h_none).le, h_zero, roundMilli_eq_self isMilli_zero, zero_add]
    exact h_le

/-- **A crop inside a frame as that is rounded.** -/
structure InsideRounded (frame : Size .video ℚ) (c : Crop ℚ) : Prop where
  zero_le_x : 0 ≤ c.x
  zero_le_y : 0 ≤ c.y
  right_le : c.right ≤ roundMilli frame.width
  bottom_le : c.bottom ≤ roundMilli frame.height

/-- The crop need not be as large as allowed, so that the frame may be of any size. -/
theorem Framed.insideRounded (h : c.Framed frame) (h_wide : 10 ≤ frame.width)
    (h_high : 10 ≤ frame.height) : c.InsideRounded frame := by
  obtain ⟨given, rfl⟩ := h
  -- a size between the smallest one and the frame is rounded between the two as they are rounded
  have h_size {side : ℚ} (h_side : 10 ≤ side) (size : ℚ) :
      0 ≤ roundMilli (within size minSize side) ∧
        roundMilli (within size minSize side) ≤ roundMilli side := by
    have h_least : 0 ≤ within size minSize side :=
      calc (0 : ℚ) ≤ minSize := by rw [minSize_eq]; norm_num
        _ ≤ within size minSize side := le_within (minSize_eq.trans_le h_side) size
    exact ⟨roundMilli_nonneg h_least, monotone_roundMilli (within_le _ _ _)⟩
  obtain ⟨h_width, h_fits⟩ := h_size h_wide given.width
  obtain ⟨h_height, h_fits'⟩ := h_size h_high given.height
  obtain ⟨h_x, h_right⟩ := position_inside_rounded h_width (isMilli_roundMilli _) h_fits given.x
  obtain ⟨h_y, h_bottom⟩ := position_inside_rounded h_height (isMilli_roundMilli _) h_fits' given.y
  exact ⟨h_x, h_y, h_right, h_bottom⟩

/-- The whole frame keeps its size, rounded. -/
theorem constrain_full (h_wide : 10 ≤ frame.width) (h_high : 10 ≤ frame.height) :
    ((full frame).constrain frame).width = roundMilli frame.width ∧
      ((full frame).constrain frame).height = roundMilli frame.height := by
  constructor
  · change roundMilli (within frame.width minSize frame.width) = _
    rw [within_eq_self (minSize_eq.trans_le h_wide) le_rfl]
  · change roundMilli (within frame.height minSize frame.height) = _
    rw [within_eq_self (minSize_eq.trans_le h_high) le_rfl]

end Crop

namespace Clip

variable {settings : Settings ℚ} {metadata : Metadata ℚ} {fps : Nat} {c c₀ : Clip ℚ}

/-- The crops of the payload were brought into the frame. -/
theorem Sound.framed_payload_crop (h : c.Sound metadata fps) :
    ∀ k ∈ c.payload.crop, k.value.Framed metadata.frame := by
  rw [h.payload_crop]
  exact h.crop_framed.shown

/-- A clip that was only loaded exports its whole frame. -/
theorem full_mem_payload_crop (h : load settings metadata fps = .ok c₀) :
    ⟨0, (Crop.full metadata.frame).constrain metadata.frame⟩ ∈ c₀.payload.crop := by
  have h_sound : c₀.Sound metadata fps := Reachable.sound ⟨c₀, [], h, rfl⟩
  obtain ⟨-, -, timeline, -, rfl⟩ := load_eq_ok h
  rw [h_sound.payload_crop]
  refine h_sound.crop.mem_shown ?_
  rw [Track.get?]
  split <;> rfl

/-- **Exported crops.** Take a clip whose frame has room for the smallest crop; its sides need not be
whole numbers of anything. Whatever is done to it, no exported crop begins before the frame, or ends
behind the frame as that is rounded to thousandths. So all crops that are ever exported lie inside
the frame itself exactly if neither side of the frame is rounded up. -/
theorem exported_crop_inside_iff (h : load settings metadata fps = .ok c₀)
    (h_wide : 10 ≤ metadata.width) (h_high : 10 ≤ metadata.height) :
    (∀ c, Reachable settings metadata fps c →
      ∀ k ∈ c.payload.crop, k.value.InsideRounded metadata.frame) ∧
      ((∀ c, Reachable settings metadata fps c → ∀ k ∈ c.payload.crop,
          k.value.right ≤ metadata.width ∧ k.value.bottom ≤ metadata.height) ↔
        roundMilli metadata.width ≤ metadata.width ∧
          roundMilli metadata.height ≤ metadata.height) := by
  have h_inside : ∀ c, Reachable settings metadata fps c →
      ∀ k ∈ c.payload.crop, k.value.InsideRounded metadata.frame :=
    fun c hc k hk => (hc.sound.framed_payload_crop k hk).insideRounded h_wide h_high
  refine ⟨h_inside, ?_, ?_⟩
  · intro h_all
    -- the crop of a loaded clip is the whole frame, with its sides rounded
    have h_full := Crop.constrain_full (show 10 ≤ metadata.frame.width from h_wide) h_high
    have h_loaded : Reachable settings metadata fps c₀ := ⟨c₀, [], h, rfl⟩
    have h_mem := full_mem_payload_crop h
    obtain ⟨h_right, h_bottom⟩ := h_all c₀ h_loaded _ h_mem
    have h_begins := h_inside c₀ h_loaded _ h_mem
    constructor
    · calc roundMilli metadata.width
          = ((Crop.full metadata.frame).constrain metadata.frame).width := h_full.1.symm
        _ ≤ ((Crop.full metadata.frame).constrain metadata.frame).right :=
          le_add_of_nonneg_left h_begins.zero_le_x
        _ ≤ metadata.width := h_right
    · calc roundMilli metadata.height
          = ((Crop.full metadata.frame).constrain metadata.frame).height := h_full.2.symm
        _ ≤ ((Crop.full metadata.frame).constrain metadata.frame).bottom :=
          le_add_of_nonneg_left h_begins.zero_le_y
        _ ≤ metadata.height := h_bottom
  · -- every crop is inside the rounded frame, which is not the larger one
    rintro ⟨h_width, h_height⟩ c hc k hk
    have h_rounded := h_inside c hc k hk
    exact ⟨h_rounded.right_le.trans h_width, h_rounded.bottom_le.trans h_height⟩

/-- A frame with sides that are no thousandths and are rounded down, in which a crop that is too
large is put too far to the right. -/
theorem exported_crop_inside_iff_of_round_down :
    ∃ c₀ c : Clip ℚ, load .default ⟨100.0004, 60.2502, 2⟩ 30 = .ok c₀ ∧
      (10 : ℚ) ≤ 100.0004 ∧ (10 : ℚ) ≤ 60.2502 ∧
      c.Reachable .default ⟨100.0004, 60.2502, 2⟩ 30 ∧
      c.payload.crop.map FrameValue.value = [⟨0, 0, 100, 60.25⟩, ⟨79.876, 0, 20.124, 60.25⟩,
        ⟨0, 0, 100, 60.25⟩] ∧
      ∀ k ∈ c.payload.crop, k.value.right ≤ 100.0004 ∧ k.value.bottom ≤ 60.2502 := by
  have h : load .default ⟨100.0004, 60.2502, 2⟩ 30 = .ok (loaded
      (⟨100.0004, 60.2502, 2⟩ : Metadata ℚ) 30 ⟨2, [⟨0, 2, 1.0, false⟩], [], 0.01, .keepRight⟩) :=
    load_of_valid (by decide +kernel) (by decide) (by decide +kernel)
  have h_wide : (10 : ℚ) ≤ 100.0004 := by norm_num
  have h_high : (10 : ℚ) ≤ 60.2502 := by norm_num
  have h_reachable : (run (loaded (⟨100.0004, 60.2502, 2⟩ : Metadata ℚ) 30
      ⟨2, [⟨0, 2, 1.0, false⟩], [], 0.01, .keepRight⟩)
      [.setCrop 20 ⟨99, 7, 20.1243, 500⟩]).Reachable .default ⟨100.0004, 60.2502, 2⟩ 30 :=
    ⟨_, _, h, rfl⟩
  -- both sides are rounded down
  have h_down : roundMilli (100.0004 : ℚ) ≤ 100.0004 ∧ roundMilli (60.2502 : ℚ) ≤ 60.2502 := by
    decide +kernel
  exact ⟨_, _, h, h_wide, h_high, h_reachable, by decide +kernel,
    (exported_crop_inside_iff h h_wide h_high).2.mpr h_down _ h_reachable⟩

/-- A frame that is rounded up: what is exported of the clip as it is loaded is wider than its
frame. -/
theorem exported_crop_not_inside :
    ∃ c : Clip ℚ, c.Reachable .default ⟨100.0006, 60, 2⟩ 30 ∧ (10 : ℚ) ≤ 100.0006 ∧ (10 : ℚ) ≤ 60 ∧
      ¬ ∀ k ∈ c.payload.crop, k.value.right ≤ 100.0006 ∧ k.value.bottom ≤ 60 :=
  ⟨run (loaded ⟨100.0006, 60, 2⟩ 30 ⟨2, [⟨0, 2, 1.0, false⟩], [], 0.01, .keepRight⟩) [],
    ⟨_, _, load_of_valid (by decide +kernel) (by decide) (by decide +kernel), rfl⟩,
    by norm_num, by norm_num, by decide +kernel⟩

end Clip

end ClipEdit
