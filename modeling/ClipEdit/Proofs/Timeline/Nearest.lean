import ClipEdit.Proofs.Timeline.Boundaries

/-!
# The nearest boundary

A boundary is taken away by a time within `epsilon` of it. Boundaries keep `epsilon` from each other
and no more, so a time can be that close to two of them, one on each side. The search goes from the
beginning of the clip and ends at the first one, whichever of the two is nearer:

* `Tiled.findIdx?_eq_iff` — the search ends at a boundary exactly if that is the first one that is near
  (`FirstNear`);
* `Tiled.joinsAt_of_firstNear`, `Tiled.exists_firstNear` — so a join takes that boundary away, if both of
  its neighbours are shown, and it never takes another one away;
* `Tiled.between_of_closer` — if another boundary is strictly nearer, the time lies between the two.

What the search misses is therefore the nearest boundary behind a time when one before the time is
near as well: `removeBoundary_nearest_iff`. The boundary in front is then taken away in its place, or
the join is refused because a neighbour of that one is trimmed, `removeBoundary_not_nearest`.

Everything here is about exact arithmetic.
-/

namespace ClipEdit

open Scalar

namespace Timeline

variable {t : Timeline ℚ} {a b : List (Span ℚ)} {l r : Span ℚ} {time x y : ℚ}

/-- No boundary is nearer to a time than `x`, and `x` is near enough to be taken away by it. -/
structure Nearest (t : Timeline ℚ) (time x : ℚ) : Prop where
  mem : x ∈ t.boundaries
  near : |x - time| < t.epsilon
  le : ∀ y ∈ t.boundaries, |x - time| ≤ |y - time|

/-- No boundary before `x` is near a time, and `x` is. -/
structure FirstNear (t : Timeline ℚ) (time x : ℚ) : Prop where
  mem : x ∈ t.boundaries
  near : |x - time| < t.epsilon
  far : ∀ y ∈ t.boundaries, y < x → t.epsilon ≤ |y - time|

/-- A join is carried out and takes the boundary `x` away, and no other. -/
def JoinsAt (t : Timeline ℚ) (time x : ℚ) : Prop :=
  (t.removeBoundary time).accepted = true ∧
    (t.removeBoundary time).state.boundaries = t.boundaries.filter fun y => !(y == x)

/-- A join takes one boundary away. -/
theorem JoinsAt.eq (h : t.JoinsAt time x) (h' : t.JoinsAt time y) (hx : x ∈ t.boundaries) :
    x = y := by
  by_contra h_ne
  have h_kept : x ∈ t.boundaries.filter fun z => !(z == y) :=
    List.mem_filter.mpr ⟨hx, by simpa using h_ne⟩
  rw [← h'.2, h.2, List.mem_filter] at h_kept
  simp at h_kept

theorem isSameBoundary_iff : t.isSameBoundary x time = true ↔ |x - time| < t.epsilon := by
  rw [isSameBoundary, decide_eq_true_iff, Exact.magnitude_eq_abs]

namespace Tiled

/-! ### The search -/

/-- Boundaries are in order. -/
theorem pairwise_boundaries_lt (h : t.Tiled) : t.boundaries.Pairwise (· < ·) := by
  have h_starts : (t.spans.map Span.start).Pairwise (· < ·) :=
    List.pairwise_map.mpr h.tiles.pairwise_start_lt
  exact h_starts.sublist ((List.tail_sublist t.spans).map Span.start)

/-- Boundaries keep their distance. -/
theorem epsilon_le (h : t.Tiled) (hx : x ∈ t.boundaries) (hy : y ∈ t.boundaries) (h_lt : x < y) :
    t.epsilon ≤ y - x := by
  have h_both := h.apart.and h.pairwise_boundaries_lt
  obtain ⟨i, hi, rfl⟩ := List.getElem_of_mem hx
  obtain ⟨j, hj, rfl⟩ := List.getElem_of_mem hy
  rcases lt_trichotomy i j with h_ij | rfl | h_ji
  · have h_le := (List.pairwise_iff_getElem.mp h_both i j hi hj h_ij).1
    rwa [Exact.magnitude_eq_abs, abs_sub_comm, abs_of_pos (sub_pos.mpr h_lt)] at h_le
  · exact absurd h_lt (lt_irrefl _)
  · exact absurd h_lt (List.pairwise_iff_getElem.mp h_both j i hj hi h_ji).2.not_gt

/-- The boundaries before and behind the one between two spans. -/
theorem lt_boundary_lt (h : t.Tiled) (h_spans : t.spans = a ++ l :: r :: b) :
    (∀ y ∈ (a ++ [l]).tail.map Span.start, y < r.start) ∧
      ∀ y ∈ b.map Span.start, r.start < y := by
  have h_sorted := h.pairwise_boundaries_lt
  rw [boundaries_place h_spans, List.map_cons, List.pairwise_append, List.pairwise_cons] at h_sorted
  obtain ⟨-, ⟨h_behind, -⟩, h_before⟩ := h_sorted
  exact ⟨fun y hy => h_before y hy r.start List.mem_cons_self, h_behind⟩

/-- **The search ends at the first boundary that is near.** -/
theorem findIdx?_eq_iff (h : t.Tiled) (h_spans : t.spans = a ++ l :: r :: b) :
    (t.boundaries.findIdx? fun x => t.isSameBoundary x time) = some a.length ↔
      t.FirstNear time r.start := by
  obtain ⟨h_before, h_behind⟩ := h.lt_boundary_lt h_spans
  have h_boundaries := boundaries_place h_spans
  have h_len : ((a ++ [l]).tail.map Span.start).length = a.length := by simp
  rw [List.map_cons] at h_boundaries
  constructor
  · intro h_at
    obtain ⟨u, x, v, h_eq, h_u, hx, h_far⟩ := exists_place_of_findIdx? h_at
    -- the boundary found is the one between the two spans, as it stands at the same place
    obtain ⟨rfl, h_tail⟩ := List.append_inj (h_eq.symm.trans h_boundaries) (h_u.trans h_len.symm)
    obtain ⟨rfl, rfl⟩ := List.cons_eq_cons.mp h_tail
    refine ⟨by simp [h_boundaries], isSameBoundary_iff.mp hx, ?_⟩
    intro y hy h_lt
    rw [h_boundaries, List.mem_append, List.mem_cons] at hy
    rcases hy with hy | rfl | hy
    · -- boundaries before it were passed over, and those behind it are no candidates
      have h_not := h_far y hy
      rw [Bool.eq_false_iff, Ne, isSameBoundary_iff, not_lt] at h_not
      exact h_not
    · exact absurd h_lt (lt_irrefl _)
    · exact absurd h_lt (h_behind y hy).not_gt
  · -- nothing before it is near enough to stop the search
    intro h_first
    rw [h_boundaries, ← h_len]
    refine findIdx?_place ?_ (isSameBoundary_iff.mpr h_first.near)
    intro y hy
    have h_mem : y ∈ t.boundaries := by
      rw [h_boundaries]
      exact List.mem_append_left _ hy
    rw [Bool.eq_false_iff, Ne, isSameBoundary_iff, not_lt]
    exact h_first.far y h_mem (h_before y hy)

/-- **A strictly nearer boundary** than the first one that is near lies behind the time, and that
first one lies before it. -/
theorem between_of_closer (h : t.Tiled) (h_first : t.FirstNear time x) (hy : y ∈ t.boundaries)
    (h_closer : |y - time| < |x - time|) : x < time ∧ time < y := by
  have h_near := h_first.near
  -- the nearer one is not in front of the first one, so it is behind it
  have h_lt : x < y := by
    rcases lt_trichotomy x y with h_lt | rfl | h_gt
    · exact h_lt
    · exact absurd h_closer (lt_irrefl _)
    · exact absurd (h_closer.trans h_near) (h_first.far y hy h_gt).not_gt
  have h_apart := h.epsilon_le h_first.mem hy h_lt
  have h_begun : x < time := by
    by_contra h_not
    rw [abs_of_nonneg (by linarith), abs_of_nonneg (by linarith)] at h_closer
    linarith
  rw [abs_sub_comm, abs_of_pos (sub_pos.mpr h_begun)] at h_near
  exact ⟨h_begun, by linarith⟩

/-! ### Joins -/

/-- A join at the first boundary that is near takes that boundary away, when both of its neighbours
are shown. -/
theorem joinsAt_of_firstNear (h : t.Tiled) (h_spans : t.spans = a ++ l :: r :: b)
    (hl : l.isTrimmed = false) (hr : r.isTrimmed = false) (h_first : t.FirstNear time r.start) :
    t.JoinsAt time r.start := by
  have h_eq := removeBoundary_eq_accept h_spans hl hr ((h.findIdx?_eq_iff h_spans).mpr h_first)
  rw [JoinsAt, h_eq, h.filter_boundaries h_spans]
  exact ⟨rfl, boundaries_join t t.mergePolicy⟩

/-- **A join that is carried out** takes the first boundary away that is near. -/
theorem exists_firstNear (h : t.Tiled) (h_accepted : (t.removeBoundary time).accepted = true) :
    ∃ x, t.FirstNear time x ∧ t.JoinsAt time x := by
  rcases t.removeBoundary_cases time with h_eq | ⟨a, l, r, b, h_spans, hl, hr, h_at, -⟩
  · rw [h_eq] at h_accepted
    exact absurd h_accepted (by simp)
  · have h_first := (h.findIdx?_eq_iff h_spans).mp h_at
    exact ⟨r.start, h_first, h.joinsAt_of_firstNear h_spans hl hr h_first⟩

end Tiled

/-- **Which boundary a join takes away.** In a reachable timeline, let `x` be the boundary nearest to
a time and less than `epsilon` away from it, with both neighbours shown. A join at that time takes
`x` away exactly if no boundary in front of `x` is less than `epsilon` away as well. Whatever
boundary a join takes away is less than `epsilon` away from the time, and another one can be strictly
nearer only where the time lies between the two. -/
theorem removeBoundary_nearest_iff {t : Timeline ℚ} (h : t.Reachable) (h_epsilon : 0 < t.epsilon) :
    (∀ time i x l r, t.boundaries[i]? = some x → t.spans[i]? = some l → t.spans[i + 1]? = some r →
        t.Nearest time x → l.isTrimmed = false → r.isTrimmed = false →
        (t.JoinsAt time x ↔ ∀ y ∈ t.boundaries, y < x → t.epsilon ≤ |y - time|)) ∧
      ∀ time, (t.removeBoundary time).accepted = true →
        ∃ x ∈ t.boundaries, t.JoinsAt time x ∧ |x - time| < t.epsilon ∧
          ∀ y ∈ t.boundaries, |y - time| < |x - time| → x < time ∧ time < y := by
  have h_tiled := (h.sound h_epsilon).tiled
  constructor
  · intro time i x l r h_at h_left h_right h_nearest hl hr
    obtain ⟨a, b, h_spans, rfl⟩ := exists_place_of_neighbours h_left h_right
    -- the boundary is where the span behind it begins
    obtain rfl : r.start = x := by simpa [boundaries, h_right] using h_at
    constructor
    · intro h_joins
      obtain ⟨x, h_first, h_joins'⟩ := h_tiled.exists_firstNear h_joins.1
      obtain rfl := h_joins'.eq h_joins h_first.mem
      exact h_first.far
    · intro h_far
      exact h_tiled.joinsAt_of_firstNear h_spans hl hr ⟨h_nearest.mem, h_nearest.near, h_far⟩
  · intro time h_accepted
    obtain ⟨x, h_first, h_joins⟩ := h_tiled.exists_firstNear h_accepted
    exact ⟨x, h_first.mem, h_joins, h_first.near, fun y => h_tiled.between_of_closer h_first⟩

/-- Ten seconds cut at `4`, `4.012` and `7`. The join at `6.995` takes the nearest cut away, the one
at `4.008` does not. -/
theorem removeBoundary_nearest_iff_of_close_cuts :
    ∃ t : Timeline ℚ, t.Reachable ∧ 0 < t.epsilon ∧ t.boundaries = [4, 4.012, 7] ∧
      t.JoinsAt 6.995 7 ∧ t.Nearest 4.008 4.012 ∧ ¬ t.JoinsAt 4.008 4.012 ∧
      ∃ x ∈ t.boundaries, t.JoinsAt 4.008 x ∧ x < 4.008 := by
  obtain ⟨t, h_t⟩ : ∃ t : Timeline ℚ, run ⟨10, [⟨0, 10, 1.0, false⟩], [], 0.01, .keepRight⟩
      [.edit (.addBoundary 4), .edit (.addBoundary 4.012), .edit (.addBoundary 7)] = t := ⟨_, rfl⟩
  have h : t.Reachable := ⟨10, 0.01, .keepRight, _, _, rfl, h_t⟩
  have h_facts : t.epsilon = 0.01 ∧ t.boundaries = [4, 4.012, 7] ∧
      t.spans = [⟨0, 4, 1, false⟩, ⟨4, 4.012, 1, false⟩, ⟨4.012, 7, 1, false⟩, ⟨7, 10, 1, false⟩] ∧
      (t.removeBoundary 4.008).accepted = true := by
    rw [← h_t]
    decide +kernel
  obtain ⟨h_epsilon, h_boundaries, h_spans, h_accepted⟩ := h_facts
  obtain ⟨h_iff, h_taken⟩ := removeBoundary_nearest_iff h (by rw [h_epsilon]; norm_num)
  -- one time with a single boundary in reach, and one with two of which the farther comes first
  have h_far : t.Nearest 6.995 7 :=
    ⟨by simp [h_boundaries], by rw [h_epsilon]; norm_num, by rw [h_boundaries]; decide +kernel⟩
  have h_close : t.Nearest 4.008 4.012 :=
    ⟨by simp [h_boundaries], by rw [h_epsilon]; norm_num, by rw [h_boundaries]; decide +kernel⟩
  have h_seven := h_iff 6.995 2 7 ⟨4.012, 7, 1, false⟩ ⟨7, 10, 1, false⟩ (by simp [h_boundaries])
    (by simp [h_spans]) (by simp [h_spans]) h_far rfl rfl
  have h_four := h_iff 4.008 1 4.012 ⟨4, 4.012, 1, false⟩ ⟨4.012, 7, 1, false⟩
    (by simp [h_boundaries]) (by simp [h_spans]) (by simp [h_spans]) h_close rfl rfl
  obtain ⟨x, hx, h_joins, -, h_closer⟩ := h_taken 4.008 h_accepted
  rw [h_boundaries, h_epsilon] at h_seven h_four
  have h_kept : ¬ t.JoinsAt 4.008 4.012 := by
    rw [h_four]
    decide +kernel
  refine ⟨t, h, by rw [h_epsilon]; norm_num, h_boundaries, h_seven.mpr (by decide +kernel), h_close,
    h_kept, x, hx, h_joins, ?_⟩
  -- it is not `4.012`, so that one is nearer
  refine (h_closer 4.012 (by simp [h_boundaries]) ?_).1
  simp only [h_boundaries, List.mem_cons, List.not_mem_nil, or_false] at hx
  rcases hx with rfl | rfl | rfl
  · norm_num
  · exact absurd h_joins h_kept
  · norm_num

/-- Ten seconds cut at `4` and `4.012`. A join at `4.008` takes `4` away although `4.012` is strictly
nearer; and with the span in front of `4` trimmed away the join is refused, although both neighbours
of `4.012` are shown. -/
theorem removeBoundary_not_nearest :
    ∃ t : Timeline ℚ, t.Reachable ∧ 0 < t.epsilon ∧ t.Nearest 4.008 4.012 ∧
      |(4.012 : ℚ) - 4.008| < |(4 : ℚ) - 4.008| ∧ (∀ s ∈ t.spans, s.isTrimmed = false) ∧
      t.JoinsAt 4.008 4 ∧
      (t.trim 0).state.Nearest 4.008 4.012 ∧
      (t.trim 0).state.spans = [⟨0, 4, 1, true⟩, ⟨4, 4.012, 1, false⟩, ⟨4.012, 10, 1, false⟩] ∧
      ((t.trim 0).state.removeBoundary 4.008).accepted = false := by
  obtain ⟨t, h_t⟩ : ∃ t : Timeline ℚ, run ⟨10, [⟨0, 10, 1.0, false⟩], [], 0.01, .keepRight⟩
      [.edit (.addBoundary 4), .edit (.addBoundary 4.012)] = t := ⟨_, rfl⟩
  have h : t.Reachable := ⟨10, 0.01, .keepRight, _, _, rfl, h_t⟩
  -- which boundary is nearest depends on the boundaries only, and a trim leaves them as they are
  have h_nearest : ∀ t' : Timeline ℚ, t'.epsilon = 0.01 → t'.boundaries = [4, 4.012] →
      t'.Nearest 4.008 4.012 := by
    intro t' h_epsilon h_boundaries
    exact ⟨by simp [h_boundaries], by rw [h_epsilon]; norm_num,
      by rw [h_boundaries]; decide +kernel⟩
  refine ⟨t, h, ?_, h_nearest t ?_ ?_, by norm_num, ?_, ⟨?_, ?_⟩, h_nearest _ ?_ ?_, ?_, ?_⟩ <;>
    (rw [← h_t]; decide +kernel)

end Timeline

end ClipEdit
