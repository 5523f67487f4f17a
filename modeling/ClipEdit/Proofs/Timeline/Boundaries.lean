import ClipEdit.Proofs.Timeline.Reachable

/-!
# Placing and taking away boundaries

A boundary is taken away by time and not by position: the editor joins the spans that meet at the
*first* boundary within `epsilon` of the time, which need not be the nearest one. In a tiled timeline
this makes no difference where it matters. Boundaries keep their distance, so a time that is a
boundary is near no other one:

* `Tiled.findIdx?_boundary` — the search for a boundary ends at that very boundary;
* `Tiled.removeBoundary_start` — so a join at a boundary joins the two spans that meet there;
* `Tiled.removeBoundary_addBoundary` — a cut is undone by a join at the same time;
* `removeBoundary_exact` — the two of them for reachable timelines at binary64 numbers.

A cut gives both halves the speed of the span that was cut. Hence a join that follows at once gives
that speed back under either policy, `Span.join_cut`. The other way round, a cut brings two joined
spans back if they had one speed, `Span.cut_join`.
-/

namespace ClipEdit

open Scalar Gauge

variable {α : Type}

/-- The two halves of a span make that span again, whichever of them the speed is taken from. -/
theorem Span.join_cut (policy : MergePolicy) (s : Span α) (time : α) :
    ({ s with stop := time } : Span α).join policy { s with start := time, isTrimmed := false }
      = s := by
  cases policy <;> rfl

/-- Two neighbours of the same speed that are joined can be cut apart again. -/
theorem Span.cut_join (policy : MergePolicy) {l r : Span α} (h_meet : l.stop = r.start)
    (h_speed : l.speed = r.speed) (hr : r.isTrimmed = false) :
    (l.join policy r).cut r.start = [l, r] := by
  have h_left : ({ l.join policy r with stop := r.start } : Span α) = l := by
    cases policy <;> simp [Span.join, ← h_meet, ← h_speed]
  have h_right : ({ l.join policy r with start := r.start, isTrimmed := false } : Span α) = r := by
    cases policy <;> simp [Span.join, h_speed, ← hr]
  rw [Span.cut, h_left, h_right]

namespace Timeline

variable [Scalar α] {t : Timeline α} {a b : List (Span α)} {l r : Span α} {time : α}

namespace Tiled

variable [Gauge α]

/-- The boundary between two spans is away from all boundaries before and behind it. -/
theorem le_distance (h : t.Tiled) (h_spans : t.spans = a ++ l :: r :: b) :
    ∀ x ∈ (a ++ [l]).tail.map Span.start ++ b.map Span.start,
      t.epsilon ≤ magnitude (x - r.start) := by
  have h_boundaries := boundaries_place h_spans
  rw [List.map_cons] at h_boundaries
  have h_fin : ∀ x ∈ t.boundaries, isFinite x = true := fun x hx => (h.inside x hx).1
  have h_apart := h.apart
  rw [h_boundaries, List.pairwise_append, List.pairwise_cons] at h_apart
  obtain ⟨-, ⟨h_behind, -⟩, h_before⟩ := h_apart
  rw [h_boundaries] at h_fin
  intro x hx
  rcases List.mem_append.mp hx with hx | hx
  · exact h_before x hx r.start List.mem_cons_self
  · -- the timeline is known to keep the distance in the other order
    rw [magnitude_sub_comm (h_fin x (by simp [hx])) (h_fin r.start (by simp))]
    exact h_behind x hx

omit [Gauge α] in
theorem isFinite_boundary (h : t.Tiled) (h_spans : t.spans = a ++ l :: r :: b) :
    isFinite r.start = true :=
  (h.inside r.start (by rw [boundaries_place h_spans]; simp)).1

/-- **The search for a boundary ends at that boundary.** -/
theorem findIdx?_boundary (h : t.Tiled) (h_spans : t.spans = a ++ l :: r :: b) :
    (t.boundaries.findIdx? fun x => t.isSameBoundary x r.start) = some a.length := by
  have h_far := h.le_distance h_spans
  have h_fin := h.isFinite_boundary h_spans
  have h_len : ((a ++ [l]).tail.map Span.start).length = a.length := by simp
  rw [boundaries_place h_spans, List.map_cons, ← h_len]
  apply findIdx?_place
  · -- no boundary before it is near
    intro x hx
    have h_le := h_far x (List.mem_append_left _ hx)
    have h_not := (Gauge.not_lt (le_iff.mp h_le).2.1 (le_iff.mp h_le).1).mpr h_le
    simpa [isSameBoundary] using h_not
  · -- and its distance from itself is computed as zero
    simpa [isSameBoundary] using distance_lt h_fin h_fin rfl h.zero_lt_epsilon

/-- **A join at a boundary** joins the two spans that meet there. -/
theorem removeBoundary_start (h : t.Tiled) (h_spans : t.spans = a ++ l :: r :: b)
    (hl : l.isTrimmed = false) (hr : r.isTrimmed = false) :
    t.removeBoundary r.start
      = .accept { t with spans := a ++ l.join t.mergePolicy r :: b } :=
  removeBoundary_eq_accept h_spans hl hr (h.findIdx?_boundary h_spans)

/-- The boundaries other than the one between two spans. -/
theorem filter_boundaries (h : t.Tiled) (h_spans : t.spans = a ++ l :: r :: b) :
    (t.boundaries.filter fun x => !(x == r.start))
      = (a ++ [l]).tail.map Span.start ++ b.map Span.start := by
  have h_fin := h.isFinite_boundary h_spans
  have h_far := h.le_distance h_spans
  have h_boundaries := boundaries_place h_spans
  rw [List.map_cons] at h_boundaries
  -- all other boundaries are at least `epsilon` away
  have h_keep : ∀ x ∈ (a ++ [l]).tail.map Span.start ++ b.map Span.start,
      (!(x == r.start)) = true := by
    intro x hx
    have h_mem : x ∈ t.boundaries := by
      rw [h_boundaries]
      exact ((List.Sublist.refl _).append (List.sublist_cons_self _ _)).subset hx
    have h_ne := value_ne_of_le_distance (h.inside x h_mem).1 h_fin h.zero_lt_epsilon (h_far x hx)
    rw [Bool.not_eq_true', Bool.eq_false_iff]
    exact fun h_eq => h_ne (beq_iff.mp h_eq).2.2
  -- and the boundary itself is equal to itself, being a number
  have h_drop : ¬ (!(r.start == r.start)) = true := by
    simp [Gauge.beq_self (isNumber_of_isFinite h_fin)]
  rw [h_boundaries, List.filter_append, List.filter_cons, if_neg h_drop, ← List.filter_append,
    List.filter_eq_self.mpr h_keep]

/-- **A cut is undone by a join at the same time.** The cut has become a boundary, and both of its
neighbours are shown. -/
theorem removeBoundary_addBoundary (h : t.Tiled)
    (h_accepted : (t.addBoundary time).accepted = true) :
    (t.addBoundary time).state.removeBoundary time = .accept t := by
  rcases t.addBoundary_cases time with h_eq | ⟨a, s, b, h_spans, hs, h_free, h_at, h_eq⟩
  · rw [h_eq] at h_accepted
    exact absurd h_accepted (by simp)
  · rw [h_eq, Outcome.state_accept]
    -- the timeline with the cut is tiled as well, so the search ends at the cut there
    have h_cut := h.cut h_spans h_free h_at
    have h_halves : a ++ s.cut time ++ b
        = a ++ { s with stop := time } :: { s with start := time, isTrimmed := false } :: b := by
      simp [Span.cut]
    have h_join := h_cut.removeBoundary_start h_halves hs rfl
    rw [Span.join_cut, ← h_spans] at h_join
    exact h_join

end Tiled

/-- **Boundaries are taken away exactly.** In a reachable timeline a cut is undone by a join at the
same time, whatever the policy is: the timeline is the old one, its spans with their speeds and its
log of trims alike. And a join at any boundary between two spans that are shown is carried out and
takes away that boundary alone. -/
theorem removeBoundary_exact {t : Timeline Float} (h : t.Reachable) (h_epsilon : 0 < t.epsilon) :
    (∀ time, (t.addBoundary time).accepted = true →
        (t.addBoundary time).state.removeBoundary time = .accept t) ∧
      ∀ i x l r, t.boundaries[i]? = some x → t.spans[i]? = some l → t.spans[i + 1]? = some r →
        l.isTrimmed = false → r.isTrimmed = false →
        (t.removeBoundary x).accepted = true ∧
          (t.removeBoundary x).state.boundaries = t.boundaries.filter fun y => !(y == x) := by
  have h_tiled := (h.sound h_epsilon).tiled
  refine ⟨fun time => h_tiled.removeBoundary_addBoundary, ?_⟩
  intro i x l r h_at h_left h_right hl hr
  -- the boundary is where the span behind it begins
  obtain ⟨a, b, h_spans, rfl⟩ := exists_place_of_neighbours h_left h_right
  obtain rfl : r.start = x := by
    have h_len : ((a ++ [l]).tail.map Span.start).length = a.length := by simp
    rw [boundaries_place h_spans, ← h_len, List.map_cons] at h_at
    simpa using h_at
  rw [h_tiled.removeBoundary_start h_spans hl hr, h_tiled.filter_boundaries h_spans]
  exact ⟨rfl, boundaries_join t t.mergePolicy⟩

theorem removeBoundary_exact_of_two_cuts :
    ∃ t : Timeline Float, t.Reachable ∧ 0 < t.epsilon ∧ t.boundaries = [4.0, 7.0] ∧
      (t.addBoundary 5.0).accepted = true ∧
      (t.addBoundary 5.0).state.removeBoundary 5.0 = .accept t ∧
      (t.removeBoundary 7.0).accepted = true ∧
      (t.removeBoundary 7.0).state.boundaries = [4.0] := by
  obtain ⟨t, h_t⟩ : ∃ t : Timeline Float,
      run ⟨10.0, [⟨0, 10.0, 1.0, false⟩], [], 0.01, .keepLeft⟩
        [.edit (.addBoundary 4.0), .edit (.addBoundary 7.0), .edit (.setSpeed 1 2.0),
          .edit (.trim 0)] = t := ⟨_, rfl⟩
  have h : t.Reachable := ⟨10.0, 0.01, .keepLeft, _, _, rfl, h_t⟩
  have h_epsilon : 0 < t.epsilon := by
    rw [← h_t]
    decide +kernel
  obtain ⟨h_cut, h_join⟩ := removeBoundary_exact h h_epsilon
  have h_accepted : (t.addBoundary 5.0).accepted = true := by
    rw [← h_t]
    decide +kernel
  -- the cut at `7` is between a span at twice the speed and one at normal speed
  obtain ⟨h_accepted', h_boundaries⟩ := h_join 1 7.0 ⟨4.0, 7.0, 2.0, false⟩ ⟨7.0, 10.0, 1.0, false⟩
    (by rw [← h_t]; decide +kernel) (by rw [← h_t]; decide +kernel)
    (by rw [← h_t]; decide +kernel) rfl rfl
  refine ⟨t, h, h_epsilon, ?_, h_accepted, h_cut 5.0 h_accepted, h_accepted', ?_⟩
  · rw [← h_t]
    decide +kernel
  · rw [h_boundaries, ← h_t]
    decide +kernel

end Timeline

end ClipEdit
