import ClipEdit.Timeline.Strip
import ClipEdit.Proofs.Timeline.Playback

/-!
# The strip shows what is played

The strip is laid out in percent, and it keeps a cursor of its own for that: it does not ask the map
where a segment is played. `TrueStrip` says that the two agree all the same. Every segment that is
shown begins and ends on the strip where the map sends its two ends, and the shares fill the strip
without gaps. The marks of the trimmed segments are on another scale, that of the source, and take up
what the trims have left over.

* `exists_piece_layOut` — a share on the strip is a piece of the map, on another scale;
* `visualStart_eq_sum`, `sum_visualWidth` — shares lie end to end, and their widths add up;
* `Sound.trueStrip` — so the strip of a sound timeline is true to the map.

The agreement is one of exact arithmetic: rounded shares need not fill the strip.
-/

namespace ClipEdit

open Scalar TimeMap

/-! ### Sums -/

namespace Scalar.Exact

theorem percent_eq (x total : ℚ) : x / total * 100.0 = 100 * x / total := by
  have h_hundred : (100.0 : ℚ) = 100 := by norm_num
  rw [h_hundred, mul_comm 100 x, div_mul_eq_mul_div]

/-- Percentages of a total add up to the percentage of the sum. -/
theorem sum_map_percent {β : Type} (l : List β) (f : β → ℚ) (total : ℚ) :
    sum (l.map fun x => f x / total * 100.0) = sum (l.map f) / total * 100.0 := by
  induction l with
  | nil => rw [List.map_nil, List.map_nil, sum_nil, zero_div, zero_mul]
  | cons x l ih => rw [List.map_cons, List.map_cons, sum_cons, sum_cons, ih, add_div, add_mul]

end Scalar.Exact

open Scalar.Exact

/-- Spans that tile a range are as long as that range, taken together. -/
theorem Tiles.sum_duration {lo hi : ℚ} {l : List (Span ℚ)} (h : Tiles lo l hi) :
    sum (l.map Span.duration) = hi - lo := by
  induction l generalizing lo with
  | nil =>
    obtain rfl : lo = hi := h
    exact (sub_self lo).symm
  | cons s rest ih =>
    obtain ⟨rfl, -, h_rest⟩ := h
    rw [List.map_cons, sum_cons, ih h_rest, Span.duration]
    exact sub_add_sub_cancel' _ _ _

namespace Timeline

/-! ### Shares of the strip -/

section Shares

variable {total c : ℚ} {l : List (Segment ℚ)} {x : StripShare ℚ}

theorem map_segment_layOutStrip (total c : ℚ) (l : List (Segment ℚ)) :
    (layOutStrip total c l).map StripShare.segment = l := by
  induction l generalizing c with
  | nil => rfl
  | cons s rest ih => rw [layOutStrip, List.map_cons, ih]

/-- **A share is a piece of the map, on another scale**: the two cursors move alike. -/
theorem exists_piece_layOut (hx : x ∈ layOutStrip total c l) :
    ∃ p ∈ layOut c (l.map Segment.toSpan),
      p.sourceStart = x.segment.start ∧ p.sourceStop = x.segment.stop ∧
        x.visualStart = p.visualStart / total * 100.0 ∧
        x.visualStart + x.visualWidth = p.visualStop / total * 100.0 := by
  induction l generalizing c with
  | nil => exact absurd hx (by simp [layOutStrip])
  | cons s rest ih =>
    rcases List.mem_cons.mp hx with rfl | hx
    · refine ⟨_, List.mem_cons_self, rfl, rfl, rfl, ?_⟩
      dsimp only
      rw [add_div, add_mul]
    · obtain ⟨p, hp, h_p⟩ := ih hx
      exact ⟨p, List.mem_cons_of_mem _ hp, h_p⟩

/-- **Shares lie end to end.** -/
theorem visualStart_eq_sum {i : Nat} (hx : (layOutStrip total c l)[i]? = some x) :
    x.visualStart =
      c / total * 100.0 + sum (((layOutStrip total c l).take i).map StripShare.visualWidth) := by
  induction l generalizing c i with
  | nil => simp [layOutStrip] at hx
  | cons s rest ih =>
    cases i with
    | zero =>
      obtain rfl := Option.some.inj hx
      exact (add_zero _).symm
    | succ i =>
      rw [ih hx, layOutStrip, List.take_succ_cons, List.map_cons, sum_cons, add_div, add_mul,
        add_assoc]

theorem sum_visualWidth (total c : ℚ) (l : List (Segment ℚ)) :
    sum ((layOutStrip total c l).map StripShare.visualWidth) =
      sum (l.map fun s => s.visualDuration) / total * 100.0 := by
  rw [← sum_map_percent]
  induction l generalizing c with
  | nil => rfl
  | cons s rest ih => rw [layOutStrip, List.map_cons, List.map_cons, sum_cons, sum_cons, ih]

end Shares

/-! ### Shown and trimmed segments -/

section Segments

variable {α : Type}

theorem map_toSpan_activeSegments (t : Timeline α) :
    t.activeSegments.map Segment.toSpan = t.activeSpans := by
  rw [activeSpans, ← t.map_toSpan_segments, List.filter_map]
  rfl

/-- Every segment is trimmed or shown, and is so only once. -/
theorem trimmed_append_active_perm (t : Timeline α) :
    (t.trimmedSegments ++ t.activeSegments).Perm t.segments :=
  List.filter_append_perm _ _

/-- Segments differ in their places. -/
theorem nodup_segments (t : Timeline α) : t.segments.Nodup := by
  have h_index : t.segments.map Segment.index = List.range t.spans.length := by
    apply List.ext_getElem
    · simp [segments]
    · intro i _ _
      simp [segments, numbered]
  exact .of_map _ (h_index ▸ List.nodup_range)

end Segments

/-- **A strip that is true to the map.** -/
structure TrueStrip (t : Timeline ℚ) : Prop where
  /-- There is one share for every segment that is shown, in the order of the source. -/
  segments : t.layout.map StripShare.segment = t.activeSegments
  width_pos : ∀ x ∈ t.layout, 0 < x.visualWidth
  /-- The shares fill the strip. -/
  sum_width : sum (t.layout.map StripShare.visualWidth) = 100
  /-- Every share begins where those in front of it end. -/
  start_eq_sum : ∀ i x, t.layout[i]? = some x →
    x.visualStart = sum ((t.layout.take i).map StripShare.visualWidth)
  start_eq_toVisual : ∀ x ∈ t.layout,
    x.visualStart = 100 * (ofTimeline t).toVisual x.segment.start / (ofTimeline t).total
  stop_eq_toVisual : ∀ x ∈ t.layout,
    x.visualStart + x.visualWidth =
      100 * (ofTimeline t).toVisual x.segment.stop / (ofTimeline t).total
  /-- Shares and marks together mention every segment once. -/
  perm_segments :
    (t.indicators.map TrimMark.segment ++ t.layout.map StripShare.segment).Perm t.segments
  nodup : (t.indicators.map TrimMark.segment ++ t.layout.map StripShare.segment).Nodup
  /-- The marks are as wide as what the trims have left over of the source. -/
  sum_indicators : sum (t.indicators.map TrimMark.sourceWidth) =
    100 * (1 - (t.trimRange.stop - t.trimRange.start) / t.duration)

variable {t : Timeline ℚ}

/-- A sound timeline shows something, so its strip is not left empty. -/
theorem Sound.layout_eq (h : t.Sound) :
    t.layout = layOutStrip (ofTimeline t).total 0 t.activeSegments := by
  have h_pos := h.covers.zero_lt_total
  rw [total_ofTimeline] at h_pos ⊢
  exact if_neg (not_le.mpr h_pos)

theorem map_segment_indicators (t : Timeline ℚ) :
    t.indicators.map TrimMark.segment = t.trimmedSegments := by
  rw [indicators, List.map_map]
  exact List.map_id _

/-- What is trimmed is what is not shown. -/
theorem Sound.sum_duration_trimmed (h : t.Sound) :
    sum (t.trimmedSegments.map fun s => s.duration) =
      t.duration - (t.trimRange.stop - t.trimRange.start) := by
  obtain ⟨lead, shown, trail, h_parted⟩ := h.parted
  -- the spans that are shown tile the trim range, and all spans tile the clip
  have h_shown : sum (t.activeSegments.map fun s => s.duration) =
      t.trimRange.stop - t.trimRange.start := by
    rw [← (h_parted.tiles_shown h.tiled).sum_duration, ← h_parted.activeSpans_eq,
      ← map_toSpan_activeSegments, List.map_map]
    rfl
  have h_all : sum (t.segments.map fun s => s.duration) = t.duration := by
    have h_tiles := h.tiled.tiles.sum_duration
    rw [sub_zero, ← map_toSpan_segments, List.map_map] at h_tiles
    exact h_tiles
  have h_sum := sum_perm (t.trimmed_append_active_perm.map fun s => s.duration)
  rw [List.map_append, sum_append, h_shown, h_all] at h_sum
  exact eq_sub_of_add_eq h_sum

/-- The durations that the strip adds up are those of the map. -/
theorem sum_visualDuration_activeSegments (t : Timeline ℚ) :
    sum (t.activeSegments.map fun s => s.visualDuration) = (ofTimeline t).total := by
  rw [total_ofTimeline, visualDuration, ← map_toSpan_activeSegments, List.map_map]
  rfl

/-- A share is where its piece is, in percent of the total. -/
theorem Sound.exists_piece (h : t.Sound) {x : StripShare ℚ} (hx : x ∈ t.layout) :
    ∃ p ∈ (ofTimeline t).pieces, p.Proper ∧
      p.sourceStart = x.segment.start ∧ p.sourceStop = x.segment.stop ∧
      x.visualStart = 100 * p.visualStart / (ofTimeline t).total ∧
      x.visualStart + x.visualWidth = 100 * p.visualStop / (ofTimeline t).total := by
  rw [h.layout_eq] at hx
  obtain ⟨p, hp, h_start, h_stop, h_left, h_right⟩ := exists_piece_layOut hx
  rw [map_toSpan_activeSegments] at hp
  refine ⟨p, hp, h.covers.laid.proper p hp, h_start, h_stop, ?_, ?_⟩
  · rw [h_left, percent_eq]
  · rw [h_right, percent_eq]

/-- **The strip of a sound timeline is true to the map.** -/
theorem Sound.trueStrip (h : t.Sound) : t.TrueStrip := by
  have h_layout := h.layout_eq
  have h_covers := h.covers
  have h_pos := h_covers.zero_lt_total
  have h_segments : t.layout.map StripShare.segment = t.activeSegments := by
    rw [h_layout, map_segment_layOutStrip]
  have h_perm : (t.indicators.map TrimMark.segment ++ t.layout.map StripShare.segment).Perm
      t.segments := by
    rw [h_segments, map_segment_indicators]
    exact t.trimmed_append_active_perm
  refine ⟨h_segments, ?_, ?_, ?_, ?_, ?_, h_perm, h_perm.nodup_iff.mpr t.nodup_segments, ?_⟩
  · -- a share is as wide as its piece is long, and no piece is empty
    intro x hx
    obtain ⟨p, -, h_proper, -, -, h_left, h_right⟩ := h.exists_piece hx
    have h_lt : x.visualStart < x.visualStart + x.visualWidth := by
      rw [h_right, h_left]
      have h_visual := h_proper.visual_lt
      gcongr
    exact (lt_add_iff_pos_right x.visualStart).mp h_lt
  · rw [h_layout, sum_visualWidth, sum_visualDuration_activeSegments, percent_eq,
      mul_div_cancel_right₀ _ h_pos.ne']
  · -- the cursor begins at zero
    intro i x hx
    rw [h_layout] at hx ⊢
    rw [visualStart_eq_sum hx, zero_div, zero_mul, zero_add]
  · -- the two ends of a share are points of the graph
    intro x hx
    obtain ⟨p, hp, h_proper, h_start, -, h_left, -⟩ := h.exists_piece hx
    rw [h_left, ← h_start, h_covers.toVisual_of_shows ⟨p, hp, h_proper.shows_start⟩]
  · intro x hx
    obtain ⟨p, hp, h_proper, -, h_stop, -, h_right⟩ := h.exists_piece hx
    rw [h_right, ← h_stop, h_covers.toVisual_of_shows ⟨p, hp, h_proper.shows_stop⟩]
  · have h_ne : t.duration ≠ 0 := h.tiled.zero_lt_duration.ne'
    calc sum (t.indicators.map TrimMark.sourceWidth)
        = sum (t.trimmedSegments.map fun s => s.duration / t.duration * 100.0) := by
          rw [indicators, List.map_map]
          rfl
      _ = 100 * (t.duration - (t.trimRange.stop - t.trimRange.start)) / t.duration := by
          rw [sum_map_percent, h.sum_duration_trimmed, percent_eq]
      _ = 100 * (1 - (t.trimRange.stop - t.trimRange.start) / t.duration) := by
          rw [mul_div_assoc, sub_div, div_self h_ne]

/-- **The strip shows what is played.** Its shares are the segments that are shown, in order and end
to end, each from where the map sends its start to where it sends its stop, and the marks beside them
are all the other segments. -/
theorem strip_true {t : Timeline ℚ} (h : t.Reachable) (h_epsilon : 0 < t.epsilon) : t.TrueStrip :=
  (h.sound h_epsilon).trueStrip

/-- Of `9 / 2` seconds the first segment takes a third, although it is as long as the second one: it
is played at double speed. The segment in front of them is trimmed away, and was `2 / 5` of the
source. -/
theorem strip_true_of_trimmed :
    ∃ t : Timeline ℚ, t.Reachable ∧ 0 < t.epsilon ∧
      t.layout.map StripShare.visualWidth = [100 / 3, 200 / 3] ∧
      t.indicators.map TrimMark.sourceWidth = [40] ∧ t.TrueStrip := by
  obtain ⟨t, h_t⟩ : ∃ t : Timeline ℚ, run ⟨10, [⟨0, 10, 1.0, false⟩], [], 1 / 100, .keepLeft⟩
      [.edit (.addBoundary 4), .edit (.addBoundary 7), .edit (.setSpeed 1 2), .edit (.trim 0)]
      = t := ⟨_, rfl⟩
  have h : t.Reachable := ⟨10, 1 / 100, .keepLeft, _, _, rfl, h_t⟩
  have h_facts : 0 < t.epsilon ∧ t.layout.map StripShare.visualWidth = [100 / 3, 200 / 3] ∧
      t.indicators.map TrimMark.sourceWidth = [40] := by
    rw [← h_t]
    decide +kernel
  obtain ⟨h_epsilon, h_widths, h_marks⟩ := h_facts
  exact ⟨t, h, h_epsilon, h_widths, h_marks, strip_true h h_epsilon⟩

end Timeline

end ClipEdit
