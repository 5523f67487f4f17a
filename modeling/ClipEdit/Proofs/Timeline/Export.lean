import ClipEdit.Clip.Export
import ClipEdit.Proofs.Scalar.Milli
import ClipEdit.Proofs.Timeline.Reachable

/-!
# Exported timelines

The payload rounds every time to thousandths of a second, so two boundaries that are close enough
could be exported as one, with an empty span between them. Under validated settings this does not
happen. Boundaries keep `epsilon` away from each other and from the ends of the clip, hence no span
is shorter than `epsilon` or the clip (`Tiled.start_add_le_stop`), and numbers that are a thousandth
apart stay apart when they are rounded (`Exact.roundMilli_lt_roundMilli`).

An exported timeline therefore `Covers` the clip in the way that its spans tiled it, and its trim
range begins and ends with a span that is shown: `Reachable.export_covers`.
-/

namespace ClipEdit

open Scalar Exact

/-- **An exported timeline that covers a clip**: its spans lie end to end from `0` to the duration,
each of them longer than nothing. -/
structure TimelineExport.Covers (e : TimelineExport ℚ) (duration : ℚ) : Prop where
  first_start : e.spans.head?.map SpanExport.start = some 0
  last_stop : e.spans.getLast?.map SpanExport.stop = some duration
  meets : e.spans.IsChain fun s s' => s.stop = s'.start
  start_lt_stop : ∀ s ∈ e.spans, s.start < s.stop

namespace Timeline

variable {t : Timeline ℚ} {lead shown trail : List (Span ℚ)} {s : Span ℚ}

/-- **No span is shorter** than both `epsilon` and the clip. -/
theorem Tiled.start_add_le_stop (h : t.Tiled) {m : ℚ} (h_epsilon : m ≤ t.epsilon)
    (h_duration : m ≤ t.duration) (hs : s ∈ t.spans) : s.start + m ≤ s.stop := by
  obtain ⟨a, b, h_spans⟩ := List.append_of_mem hs
  have h_tiles := h.tiles
  rw [h_spans, tiles_append] at h_tiles
  obtain ⟨lo, h_before, h_start, h_lt, h_behind⟩ := h_tiles
  have h_boundaries := boundaries_place h_spans
  -- it begins at the start of the clip or at a boundary
  have h_left : s.start = 0 ∨ s.start ∈ (a ++ [s]).tail.map Span.start := by
    cases a with
    | nil => exact .inl (h_start.trans h_before.symm)
    | cons x a => exact .inr (by simp)
  -- a span lies between two of the boundaries and the ends of the clip
  cases b with
  | nil =>
    have h_stop : s.stop = t.duration := h_behind
    -- the last span ends with the clip
    -- any other ends at a boundary, which is apart from the ends and from all other boundaries
    rcases h_left with h_zero | h_mem
    · linarith
    · have h_inside : s.start < t.duration - t.epsilon :=
        (h.inside _ (by rw [h_boundaries]; exact List.mem_append_left _ h_mem)).2.2
      linarith
  | cons s' b =>
    have h_meet : s'.start = s.stop := h_behind.1
    rcases h_left with h_zero | h_mem
    · have h_inside : t.epsilon < s'.start :=
        (h.inside _ (by rw [h_boundaries]; exact List.mem_append_right _ (by simp))).2.1
      linarith
    · have h_apart := h.apart
      rw [h_boundaries, List.pairwise_append] at h_apart
      have h_distance : t.epsilon ≤ |s.start - s'.start| := by
        rw [← magnitude_eq_abs]
        exact h_apart.2.2 _ h_mem _ (by simp)
      rw [h_meet, abs_sub_comm, abs_of_pos (sub_pos.mpr h_lt)] at h_distance
      linarith

section Milli

variable (h : t.Tiled) (h_epsilon : 0.001 ≤ t.epsilon) (h_duration : 0.001 ≤ t.duration)

include h h_epsilon h_duration

/-- No span is rounded to nothing. -/
theorem Tiled.roundMilli_start_lt (hs : s ∈ t.spans) : roundMilli s.start < roundMilli s.stop := by
  have h_start : 0 ≤ s.start := h.tiles.value_le_start s hs
  have h_milli : (0.001 : ℚ) = 1 / 1000 := by norm_num
  have h_length := h.start_add_le_stop h_epsilon h_duration hs
  rw [h_milli] at h_length
  exact roundMilli_lt_roundMilli h_start h_length

/-- **The export of a tiled timeline covers the clip.** -/
theorem Tiled.covers_ofTimeline : (Export.ofTimeline t).Covers (roundMilli t.duration) := by
  have h_ne : t.spans ≠ [] := by
    intro h_nil
    have h_tiles := h.tiles
    rw [h_nil] at h_tiles
    exact absurd h_tiles h.zero_lt_duration.ne
  constructor
  · calc (t.spans.map Export.ofSpan).head?.map SpanExport.start
        = (t.spans.head?.map Span.start).map roundMilli := by
          rw [List.head?_map, Option.map_map, Option.map_map]
          rfl
      _ = some (roundMilli 0) := by rw [h.tiles.head?_start h_ne, Option.map_some]
      _ = some 0 := by rw [roundMilli_eq_self isMilli_zero]
  · calc (t.spans.map Export.ofSpan).getLast?.map SpanExport.stop
        = (t.spans.getLast?.map Span.stop).map roundMilli := by
          rw [List.getLast?_map, Option.map_map, Option.map_map]
          rfl
      _ = some (roundMilli t.duration) := by rw [h.tiles.getLast?_stop h_ne, Option.map_some]
  · -- what meets before rounding is rounded alike
    refine (List.isChain_map Export.ofSpan).mpr (h.tiles.isChain.imp ?_)
    intro s s' h_meet
    exact congrArg roundMilli h_meet
  · -- a span is longer than the step of the grid, so its ends are not rounded together
    intro e he
    obtain ⟨s, hs, rfl⟩ := List.mem_map.mp he
    exact h.roundMilli_start_lt h_epsilon h_duration hs

/-- **The exported trim range** begins with the first span that is shown, ends with the last one,
and is longer than nothing. -/
theorem Parted.trimRange_ofTimeline (h_parted : t.Parted lead shown trail) :
    (∃ first last, (Export.ofTimeline t).spans[lead.length]? = some first ∧
        (Export.ofTimeline t).spans[lead.length + shown.length - 1]? = some last ∧
        (Export.ofTimeline t).trimRange = ⟨first.start, last.stop⟩) ∧
      (Export.ofTimeline t).trimRange.start < (Export.ofTimeline t).trimRange.stop := by
  have h_tiles := h_parted.tiles_shown h
  obtain ⟨first, rest, h_first⟩ := List.exists_cons_of_ne_nil h_parted.shown_ne_nil
  obtain ⟨init, last, h_last⟩ := (List.eq_nil_or_concat' shown).resolve_left h_parted.shown_ne_nil
  -- the trim range runs from where the first active span begins to where the last one ends
  have h_start : t.trimRange.start = first.start := by
    have h_head := h_tiles.head?_start h_parted.shown_ne_nil
    rw [h_first] at h_head
    exact (Option.some.inj h_head).symm
  have h_stop : t.trimRange.stop = last.stop := by
    have h_end := h_tiles.getLast?_stop h_parted.shown_ne_nil
    rw [h_last, List.getLast?_concat] at h_end
    exact (Option.some.inj h_end).symm
  constructor
  · refine ⟨Export.ofSpan first, Export.ofSpan last, ?_, ?_, ?_⟩
    · rw [Export.ofTimeline, List.getElem?_map, h_parted.spans_eq, h_first]
      simp
    · rw [Export.ofTimeline, List.getElem?_map, h_parted.spans_eq, h_last]
      simp
    · rw [Export.ofTimeline, h_start, h_stop]
      rfl
  · -- the last span begins no earlier than the first one and is not rounded to nothing
    have h_mem : last ∈ shown := by rw [h_last]; simp
    have h_le : t.trimRange.start ≤ last.start := h_tiles.value_le_start last h_mem
    have h_lt := h.roundMilli_start_lt h_epsilon h_duration
      (show last ∈ t.spans by rw [h_parted.spans_eq]; simp [h_mem])
    calc roundMilli t.trimRange.start ≤ roundMilli last.start := monotone_roundMilli h_le
      _ < roundMilli last.stop := h_lt
      _ = roundMilli t.trimRange.stop := by rw [h_stop]

end Milli

/-- **An export is a timeline again.** For every reachable timeline under a validated `epsilon`, on
a clip of at least a thousandth of a second, the exported spans are its segments, rounded one by
one, and they cover the clip as the segments did. The exported trim range begins with the first
segment that is shown and ends with the last one, and something is left between the two. -/
theorem Reachable.export_covers (h : t.Reachable) (h_epsilon : 0.001 ≤ t.epsilon)
    (h_duration : 0.001 ≤ t.duration) (crop : Track (Crop ℚ)) (highlight : Track (Highlight ℚ))
    (isEnabled : Bool) (seconds : ℚ) :
    let e := (Export.build crop highlight isEnabled seconds t).timeline
    e.spans = t.segments.map (fun s =>
        ⟨roundMilli s.start, roundMilli s.stop, roundMilli s.speed⟩) ∧
      e.Covers (roundMilli t.duration) ∧
      (∃ i j first last, t.firstActive? = some i ∧ t.lastActive? = some j ∧
        e.spans[i]? = some first ∧ e.spans[j]? = some last ∧
        e.trimRange = ⟨first.start, last.stop⟩) ∧
      e.trimRange.start < e.trimRange.stop := by
  have h_sound := h.sound (lt_of_lt_of_le (by norm_num : (0 : ℚ) < 0.001) h_epsilon)
  obtain ⟨lead, shown, trail, h_parted⟩ := h_sound.parted
  obtain ⟨⟨first, last, h_first, h_last, h_range⟩, h_lt⟩ :=
    h_parted.trimRange_ofTimeline h_sound.tiled h_epsilon h_duration
  refine ⟨?_, h_sound.tiled.covers_ofTimeline h_epsilon h_duration,
    ⟨_, _, first, last, h_parted.firstActive?_eq, h_parted.lastActive?_eq, h_first, h_last,
      h_range⟩, h_lt⟩
  -- the segments are the spans with their places, which are not exported
  change t.spans.map Export.ofSpan = _
  rw [← t.map_toSpan_segments, List.map_map]
  rfl

/-- Two cuts as close as they can be, each halfway between two thousandths, and everything but the
span between them trimmed away. -/
theorem export_covers_of_close_cuts :
    ∃ t : Timeline ℚ, t.Reachable ∧ t.boundaries = [4.0005, 4.0015] ∧
      t.firstActive? = some 1 ∧ t.lastActive? = some 1 ∧
      (Export.ofTimeline t).trimRange = ⟨4.001, 4.002⟩ ∧ (Export.ofTimeline t).Covers 10 := by
  obtain ⟨t, h_t⟩ : ∃ t : Timeline ℚ, run ⟨10, [⟨0, 10, 1.0, false⟩], [], 0.001, .keepLeft⟩
      [.edit (.addBoundary 4.0005), .edit (.addBoundary 4.0015), .edit (.trim 0), .edit (.trim 2)]
      = t := ⟨_, rfl⟩
  have h : t.Reachable := ⟨10, 0.001, .keepLeft, _, _, rfl, h_t⟩
  -- a thousandth is the least that is ever allowed, for both
  have h_settings : 0.001 ≤ t.epsilon ∧ 0.001 ≤ t.duration ∧ roundMilli t.duration = 10 := by
    rw [← h_t]
    decide +kernel
  obtain ⟨h_epsilon, h_duration, h_ten⟩ := h_settings
  obtain ⟨-, h_covers, -, -⟩ := h.export_covers h_epsilon h_duration
    (.create (Crop.full ⟨1920, 1080⟩) 300) (.create (Highlight.centeredIn ⟨1920, 1080⟩) 300) true 10
  rw [h_ten] at h_covers
  refine ⟨t, h, ?_, ?_, ?_, ?_, h_covers⟩ <;> rw [← h_t] <;> decide +kernel

end Timeline

end ClipEdit
