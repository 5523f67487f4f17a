import ClipEdit.Proofs.Timeline.Reachable

/-!
# The segment at a time

`Timeline.indexAt?` looks for the first span that contains a time, its start included and its stop
not, and takes the last span if there is none. Taken alone, that would hide a gap between two spans:
a time in the gap would be given to the last one.

There are no gaps in a tiled timeline. Spans end where the next ones begin, so no later span contains
a time before the stop of an earlier one (`Tiles.pairwise_stop_le_start`), and what follows is about
one span at a time:

* `Tiled.le_of_holdsAt` — of two times the later one lies in the later span, or in the same;
* `Tiled.indexAt?_of_holdsAt` — a span that contains a time is the one that is found;
* `Tiled.indexAt?_of_end` — nothing contains the end of the clip, and only there the last span is
  taken for want of another;
* `Tiled.holdsAt_of_boundary` — a time on a cut lies in the span behind it.

Nothing is assumed of the time. It may be an infinity or no number; then it is not between the two
ends of the clip, as the editor compares numbers, and there is no segment for it.
-/

namespace ClipEdit

open Scalar Gauge

variable {α : Type} [Scalar α]

/-- A span ends before any later one begins. -/
theorem Tiles.pairwise_stop_le_start [Gauge α] {lo hi : α} {l : List (Span α)} (h : Tiles lo l hi) :
    l.Pairwise fun s s' => value s.stop ≤ value s'.start := by
  induction l generalizing lo with
  | nil => exact .nil
  | cons s rest ih => exact .cons h.2.2.value_le_start (ih h.2.2)

namespace Timeline

variable {t : Timeline α} {time time' : α} {i j : Nat}

/-- The segment at a position contains a time: its start is part of it, its stop is not. -/
def HoldsAt (t : Timeline α) (i : Nat) (time : α) : Prop :=
  ∃ s, t.segments[i]? = some s ∧ s.start ≤ time ∧ time < s.stop

/-- The segments are the spans with their places. -/
theorem holdsAt_iff :
    t.HoldsAt i time ↔ ∃ s, t.spans[i]? = some s ∧ s.start ≤ time ∧ time < s.stop := by
  rw [HoldsAt, segments, List.getElem?_mapIdx]
  constructor
  · rintro ⟨_, h_at, h_mem⟩
    obtain ⟨s, h_span, rfl⟩ := Option.map_eq_some_iff.mp h_at
    exact ⟨s, h_span, h_mem⟩
  · rintro ⟨s, h_span, h_mem⟩
    exact ⟨t.numbered i s, by rw [h_span]; rfl, h_mem⟩

/-- No segment is looked for outside of the clip. -/
theorem indexAt?_eq_none_iff : t.indexAt? time = none ↔ ¬ (0 ≤ time ∧ time ≤ t.duration) := by
  rw [indexAt?]
  split
  · next h_in => simp [h_in]
  · next h_out => simp [h_out]

theorem range_of_indexAt? (h_at : t.indexAt? time = some i) : 0 ≤ time ∧ time ≤ t.duration := by
  by_contra h_out
  rw [indexAt?_eq_none_iff.mpr h_out] at h_at
  exact absurd h_at (by simp)

variable [Gauge α]

namespace Tiled

/-- What a span contains is in the clip, and not its end. -/
theorem mem_of_holdsAt (h : t.Tiled) (h_holds : t.HoldsAt i time) :
    0 ≤ time ∧ time < t.duration := by
  obtain ⟨s, h_span, h_start, h_stop⟩ := holdsAt_iff.mp h_holds
  have h_mem := List.mem_of_getElem? h_span
  have h_low := h.tiles.value_le_start s h_mem
  have h_high := h.tiles.value_stop_le s h_mem
  constructor
  · exact le_iff.mpr ⟨isNumber_zero, isNumber_left_of_lt h_stop,
      h_low.trans (value_le_of_le h_start)⟩
  · exact lt_iff.mpr ⟨isNumber_left_of_lt h_stop, isNumber_of_isFinite h.isFinite_duration,
      (value_lt_of_lt h_stop).trans_le h_high⟩

/-- **Spans contain times in order.** -/
theorem le_of_holdsAt (h : t.Tiled) (h_le : time ≤ time') (h_holds : t.HoldsAt i time)
    (h_holds' : t.HoldsAt j time') : i ≤ j := by
  obtain ⟨s, h_span, h_start, -⟩ := holdsAt_iff.mp h_holds
  obtain ⟨s', h_span', -, h_stop⟩ := holdsAt_iff.mp h_holds'
  by_contra h_lt
  -- the span of the later time would end before the span of the earlier time begins
  obtain ⟨hi, rfl⟩ := List.getElem?_eq_some_iff.mp h_span
  obtain ⟨hj, rfl⟩ := List.getElem?_eq_some_iff.mp h_span'
  have h_order := List.pairwise_iff_getElem.mp h.tiles.pairwise_stop_le_start j i hj hi (by omega)
  have h_before := value_lt_of_lt h_stop
  have h_behind := (value_le_of_le h_start).trans (value_le_of_le h_le)
  linarith

/-- A time lies in one span only. -/
theorem eq_of_holdsAt (h : t.Tiled) (h_holds : t.HoldsAt i time) (h_holds' : t.HoldsAt j time) :
    i = j := by
  have h_number := (le_iff.mp (h.mem_of_holdsAt h_holds).1).2.1
  have h_self : time ≤ time := le_iff.mpr ⟨h_number, h_number, le_rfl⟩
  exact le_antisymm (h.le_of_holdsAt h_self h_holds h_holds')
    (h.le_of_holdsAt h_self h_holds' h_holds)

/-- Every time before the end lies in a span. -/
theorem exists_holdsAt (h : t.Tiled) (h_low : 0 ≤ time) (h_high : time < t.duration) :
    ∃ i, t.HoldsAt i time := by
  obtain ⟨s, h_mem, h_start, h_stop⟩ := h.tiles.exists_mem h_low h_high
  obtain ⟨i, h_span⟩ := List.mem_iff_getElem?.mp h_mem
  exact ⟨i, holdsAt_iff.mpr ⟨s, h_span, h_start, h_stop⟩⟩

/-- **The span that contains a time is found.** -/
theorem indexAt?_of_holdsAt (h : t.Tiled) (h_holds : t.HoldsAt i time) :
    t.indexAt? time = some i := by
  obtain ⟨h_low, h_high⟩ := h.mem_of_holdsAt h_holds
  have h_le : time ≤ t.duration :=
    le_iff.mpr ⟨isNumber_left_of_lt h_high, isNumber_right_of_lt h_high, (value_lt_of_lt h_high).le⟩
  obtain ⟨s, h_span, h_start, h_stop⟩ := holdsAt_iff.mp h_holds
  obtain ⟨a, b, h_spans, rfl⟩ := exists_place_of_getElem? h_span
  have h_order := h.tiles.pairwise_stop_le_start
  rw [h_spans, List.pairwise_append] at h_order
  -- the spans in front of it end before the time
  have h_before : ∀ x ∈ a, (decide (x.start ≤ time) && decide (time < x.stop)) = false := by
    intro x hx
    have h_stop_le := h_order.2.2 x hx s List.mem_cons_self
    have h_not : ¬ time < x.stop := fun h_lt => by
      have h_lt' := value_lt_of_lt h_lt
      have h_ge := value_le_of_le h_start
      linarith
    simp [h_not]
  rw [indexAt?, if_pos ⟨h_low, h_le⟩, h_spans, findIdx?_place h_before (by simp [h_start, h_stop]),
    Option.getD_some]

/-- The end of the clip is inside of it. -/
theorem range_of_end (h : t.Tiled) (h_end : (time == t.duration) = true) :
    0 ≤ time ∧ time ≤ t.duration := by
  obtain ⟨h_number, h_number', h_eq⟩ := beq_iff.mp h_end
  have h_pos := value_lt_of_lt h.zero_lt_duration
  exact ⟨le_iff.mpr ⟨isNumber_zero, h_number, (h_pos.trans_eq h_eq.symm).le⟩,
    le_iff.mpr ⟨h_number, h_number', h_eq.le⟩⟩

/-- No span contains the end of the clip. -/
theorem not_holdsAt_of_end (h : t.Tiled) (h_end : (time == t.duration) = true) (i : Nat) :
    ¬ t.HoldsAt i time := by
  intro h_holds
  have h_lt := value_lt_of_lt (h.mem_of_holdsAt h_holds).2
  exact absurd (beq_iff.mp h_end).2.2 h_lt.ne

/-- **At the end of the clip** the last span is taken. -/
theorem indexAt?_of_end (h : t.Tiled) (h_end : (time == t.duration) = true) :
    t.indexAt? time = some (t.spans.length - 1) := by
  have h_none : (t.spans.findIdx? fun s => s.start ≤ time && decide (time < s.stop)) = none := by
    rw [List.findIdx?_eq_none_iff]
    intro s h_mem
    obtain ⟨i, h_span⟩ := List.mem_iff_getElem?.mp h_mem
    have h_not : ¬ (s.start ≤ time ∧ time < s.stop) := fun h_in =>
      h.not_holdsAt_of_end h_end i (holdsAt_iff.mpr ⟨s, h_span, h_in⟩)
    simpa using h_not
  rw [indexAt?, if_pos (h.range_of_end h_end), h_none, Option.getD_none]

/-- A clip has a span, since it is longer than nothing. -/
theorem length_pos (h : t.Tiled) : 0 < t.spans.length := by
  rw [List.length_pos_iff]
  intro h_nil
  have h_tiles := h.tiles
  rw [h_nil] at h_tiles
  have h_lt := value_lt_of_lt h.zero_lt_duration
  rw [show (0 : α) = t.duration from h_tiles] at h_lt
  exact lt_irrefl _ h_lt

/-- **Where a time is found.** A time of the clip lies in a span, or it is the end of the clip. -/
theorem indexAt?_cases (h : t.Tiled) (h_at : t.indexAt? time = some i) :
    t.HoldsAt i time ∨ (time == t.duration) = true ∧ i + 1 = t.spans.length := by
  obtain ⟨h_low, h_high⟩ := range_of_indexAt? h_at
  obtain ⟨h_number, h_number', h_le⟩ := le_iff.mp h_high
  -- before the end some span contains the time, and it is the one that is found
  rcases h_le.lt_or_eq with h_lt | h_eq
  · obtain ⟨j, h_holds⟩ := h.exists_holdsAt h_low (lt_iff.mpr ⟨h_number, h_number', h_lt⟩)
    rw [h.indexAt?_of_holdsAt h_holds, Option.some.injEq] at h_at
    rw [← h_at]
    exact Or.inl h_holds
  · have h_end : (time == t.duration) = true := beq_iff.mpr ⟨h_number, h_number', h_eq⟩
    have h_pos := h.length_pos
    rw [h.indexAt?_of_end h_end, Option.some.injEq] at h_at
    exact Or.inr ⟨h_end, by omega⟩

/-- **A time on a cut** lies in the span behind it. -/
theorem holdsAt_of_boundary {x : α} (h : t.Tiled) (h_cut : t.boundaries[i]? = some x)
    (h_eq : (time == x) = true) : t.HoldsAt (i + 1) time := by
  rw [boundaries, List.getElem?_map, List.getElem?_tail] at h_cut
  obtain ⟨s, h_span, rfl⟩ := Option.map_eq_some_iff.mp h_cut
  obtain ⟨h_number, h_number', h_value⟩ := beq_iff.mp h_eq
  have h_lt := h.tiles.start_lt_stop s (List.mem_of_getElem? h_span)
  refine holdsAt_iff.mpr ⟨s, h_span, le_iff.mpr ⟨h_number', h_number, h_value.ge⟩, ?_⟩
  exact lt_iff.mpr ⟨h_number, isNumber_right_of_lt h_lt, h_value.trans_lt (value_lt_of_lt h_lt)⟩

/-- **Later times are found further behind**, or at the same place. -/
theorem indexAt?_mono (h : t.Tiled) (h_le : time ≤ time') (h_at : t.indexAt? time = some i)
    (h_at' : t.indexAt? time' = some j) : i ≤ j := by
  rcases h.indexAt?_cases h_at' with h_holds' | ⟨-, h_last⟩
  · rcases h.indexAt?_cases h_at with h_holds | ⟨h_end, -⟩
    · exact h.le_of_holdsAt h_le h_holds h_holds'
    · -- nothing that lies in a span comes after the end of the clip
      have h_before := value_lt_of_lt (h.mem_of_holdsAt h_holds').2
      have h_behind := (beq_iff.mp h_end).2.2.symm.trans_le (value_le_of_le h_le)
      exact absurd h_before h_behind.not_gt
  · rcases h.indexAt?_cases h_at with h_holds | ⟨-, h_last'⟩
    · obtain ⟨s, h_span, -⟩ := holdsAt_iff.mp h_holds
      obtain ⟨h_lt, -⟩ := List.getElem?_eq_some_iff.mp h_span
      omega
    · omega

end Tiled

/-- **The segment at a time.** Whatever was done to a timeline, and whatever the time is, there is no
segment at it exactly if it is not between the two ends of the clip. Otherwise there is one, the only
one that contains the time, its start included and its stop not; at the end of the clip, which none
contains, it is the last one. A time on a cut belongs to the segment behind the cut, and no later
time belongs to an earlier segment. -/
theorem indexAt?_locates {t : Timeline Float} (h : t.Reachable) (h_epsilon : 0 < t.epsilon) :
    (∀ time, t.indexAt? time = none ↔ ¬ (0 ≤ time ∧ time ≤ t.duration)) ∧
      (∀ time, 0 ≤ time → time ≤ t.duration → ∃ i, t.indexAt? time = some i ∧
        i < t.segments.length ∧
          (time < t.duration ∧ (∀ j, t.HoldsAt j time ↔ j = i) ∨
            (time == t.duration) = true ∧ (∀ j, ¬ t.HoldsAt j time) ∧
              i + 1 = t.segments.length)) ∧
      (∀ i x time, t.boundaries[i]? = some x → (time == x) = true →
        t.indexAt? time = some (i + 1)) ∧
      ∀ time time' i j, time ≤ time' → t.indexAt? time = some i → t.indexAt? time' = some j →
        i ≤ j := by
  have h_tiled := (h.sound h_epsilon).tiled
  have h_length : t.segments.length = t.spans.length := List.length_mapIdx
  refine ⟨fun time => indexAt?_eq_none_iff, ?_, ?_, ?_⟩
  · intro time h_low h_high
    obtain ⟨i, h_at⟩ : ∃ i, t.indexAt? time = some i := by
      rw [← Option.ne_none_iff_exists', Ne, indexAt?_eq_none_iff, not_not]
      exact ⟨h_low, h_high⟩
    refine ⟨i, h_at, ?_⟩
    rw [h_length]
    rcases h_tiled.indexAt?_cases h_at with h_holds | ⟨h_end, h_last⟩
    · obtain ⟨s, h_span, -⟩ := holdsAt_iff.mp h_holds
      -- a span contains the time, and no other one does
      obtain ⟨h_lt, -⟩ := List.getElem?_eq_some_iff.mp h_span
      refine ⟨h_lt, Or.inl ⟨(h_tiled.mem_of_holdsAt h_holds).2, fun j => ⟨?_, ?_⟩⟩⟩
      · exact fun h_holds' => h_tiled.eq_of_holdsAt h_holds' h_holds
      · rintro rfl
        exact h_holds
    · -- the end of the clip
      exact ⟨by omega, Or.inr ⟨h_end, h_tiled.not_holdsAt_of_end h_end, h_last⟩⟩
  · intro i x time h_cut h_eq
    exact h_tiled.indexAt?_of_holdsAt (h_tiled.holdsAt_of_boundary h_cut h_eq)
  · intro time time' i j h_le h_at h_at'
    exact h_tiled.indexAt?_mono h_le h_at h_at'

/-- Ten seconds cut at `4` and `7`, with the first part trimmed away. The cut at `7` belongs to the
last part and the end of the clip does, too; a time before the clip belongs to none, and neither does
what is no number. -/
theorem indexAt?_locates_of_two_cuts :
    ∃ t : Timeline Float, t.Reachable ∧ 0 < t.epsilon ∧ t.boundaries = [4.0, 7.0] ∧
      t.indexAt? 7.0 = some 2 ∧ t.HoldsAt 1 5.5 ∧ (∀ j, t.HoldsAt j 5.5 → j = 1) ∧
      t.indexAt? 10.0 = some 2 ∧ (∀ j, ¬ t.HoldsAt j 10.0) ∧
      t.indexAt? (-1.0) = none ∧ t.indexAt? (0.0 / 0.0) = none := by
  obtain ⟨t, h_t⟩ : ∃ t : Timeline Float, run ⟨10.0, [⟨0, 10.0, 1.0, false⟩], [], 0.01, .keepLeft⟩
      [.edit (.addBoundary 7.0), .edit (.addBoundary 4.0), .edit (.trim 0)] = t := ⟨_, rfl⟩
  have h : t.Reachable := ⟨10.0, 0.01, .keepLeft, _, _, rfl, h_t⟩
  have h_facts : 0 < t.epsilon ∧ t.boundaries = [4.0, 7.0] ∧ t.duration = 10.0 ∧
      t.indexAt? 5.5 = some 1 ∧ t.segments.length = 3 := by
    rw [← h_t]
    decide +kernel
  obtain ⟨h_epsilon, h_cuts, h_duration, h_at, h_length⟩ := h_facts
  obtain ⟨h_none, h_some, h_cut, -⟩ := indexAt?_locates h h_epsilon
  rw [h_duration] at h_none h_some
  -- a time inside of a span, and the end of the clip
  obtain ⟨i, h_at', -, h_inside⟩ := h_some 5.5 (by decide) (by decide)
  obtain ⟨k, h_at_end, -, h_end⟩ := h_some 10.0 (by decide) (by decide)
  obtain rfl : i = 1 := Option.some.inj (h_at'.symm.trans h_at)
  have h_only := (h_inside.resolve_right fun h_not => absurd h_not.1 (by decide)).2
  obtain ⟨-, h_nothing, h_last⟩ := h_end.resolve_left fun h_not => absurd h_not.1 (by decide)
  obtain rfl : k = 2 := by omega
  exact ⟨t, h, h_epsilon, h_cuts, h_cut 1 7.0 7.0 (by rw [h_cuts]; rfl) (by decide),
    (h_only 1).mpr rfl, fun j => (h_only j).mp, h_at_end, h_nothing, (h_none _).mpr (by decide),
    (h_none _).mpr (by decide)⟩

end Timeline

end ClipEdit
