import ClipEdit.Proofs.Scalar.Gauge
import ClipEdit.Proofs.Timeline.Edits

/-!
# Spans that tile a clip

`Tiles lo spans hi` says that the spans lie end to end from `lo` to `hi`, each of them longer than
nothing. A timeline is `Tiled` when its spans tile the clip and its boundaries keep their distance:
each is more than `epsilon` away from the two ends of the clip, and no two of them are closer than
`epsilon`, in the distance that the editor computes.

* `Tiled.cut`, `Tiled.join` — cutting a span and joining two spans keep a timeline tiled;
* `Tiled.of_extents` — so does everything that leaves starts and stops alone;
* `Tiled.indexAt?_place` — the span that a time falls into really contains it;
* `Tiled.mem_of_isFreeForBoundary` — and a cut lies strictly inside of it.

That a cut leaves two spans that are both longer than nothing is where the two checks of a cut meet:
the time lies in the span, and a time on its start would be too close to a boundary.
-/

namespace ClipEdit

open Scalar Gauge

variable {α : Type} [Scalar α]

/-- Spans that lie end to end from `lo` to `hi`. -/
def Tiles : α → List (Span α) → α → Prop
  | lo, [], hi => lo = hi
  | lo, s :: rest, hi => s.start = lo ∧ s.start < s.stop ∧ Tiles s.stop rest hi

/-- Where a span begins and ends. -/
def Span.extent (s : Span α) : α × α := (s.start, s.stop)

section Tiles

variable {lo hi : α} {l l' a b : List (Span α)} {s : Span α}

theorem tiles_append :
    Tiles lo (l ++ l') hi ↔ ∃ mid, Tiles lo l mid ∧ Tiles mid l' hi := by
  induction l generalizing lo with
  | nil => simp [Tiles]
  | cons s rest ih =>
    simp only [List.cons_append, Tiles, ih]
    constructor
    · rintro ⟨h_start, h_lt, mid, h_rest, h_tail⟩
      exact ⟨mid, ⟨h_start, h_lt, h_rest⟩, h_tail⟩
    · rintro ⟨mid, ⟨h_start, h_lt, h_rest⟩, h_tail⟩
      exact ⟨h_start, h_lt, mid, h_rest, h_tail⟩

/-- Tiling is a matter of starts and stops. -/
theorem Tiles.of_extents (h : Tiles lo l hi) (h_eq : l'.map Span.extent = l.map Span.extent) :
    Tiles lo l' hi := by
  induction l generalizing lo l' with
  | nil =>
    obtain rfl : l' = [] := by simpa using h_eq
    exact h
  | cons s rest ih =>
    -- the other list is as long, and its first span has the same two ends
    cases l' with
    | nil => simp at h_eq
    | cons s' rest' =>
      simp only [List.map_cons, List.cons.injEq, Span.extent, Prod.mk.injEq] at h_eq
      obtain ⟨⟨h_start, h_stop⟩, h_rest⟩ := h_eq
      refine ⟨by rw [h_start]; exact h.1, by rw [h_start, h_stop]; exact h.2.1, ?_⟩
      rw [h_stop]
      exact ih h.2.2 h_rest

theorem Tiles.start_lt_stop (h : Tiles lo l hi) : ∀ s ∈ l, s.start < s.stop := by
  induction l generalizing lo with
  | nil => simp
  | cons s rest ih =>
    intro s' hs'
    rcases List.mem_cons.mp hs' with rfl | hs'
    · exact h.2.1
    · exact ih h.2.2 s' hs'

/-- Each span ends where the next one begins. -/
theorem Tiles.isChain (h : Tiles lo l hi) : l.IsChain fun s s' => s.stop = s'.start := by
  induction l generalizing lo with
  | nil => exact .nil
  | cons s rest ih =>
    cases rest with
    | nil => exact .singleton s
    | cons s' rest => exact .cons_cons h.2.2.1.symm (ih h.2.2)

theorem Tiles.head?_start (h : Tiles lo l hi) (hl : l ≠ []) :
    l.head?.map Span.start = some lo := by
  cases l with
  | nil => exact absurd rfl hl
  | cons s rest => simp [h.1]

theorem Tiles.getLast?_stop (h : Tiles lo l hi) (hl : l ≠ []) :
    l.getLast?.map Span.stop = some hi := by
  induction l generalizing lo with
  | nil => exact absurd rfl hl
  | cons s rest ih =>
    cases rest with
    | nil => simpa [Tiles] using h.2.2
    | cons s' rest =>
      rw [List.getLast?_cons_cons]
      exact ih h.2.2 (by simp)

variable [Gauge α]

/-- Nothing that is tiled lies before the beginning. -/
theorem Tiles.value_le_start (h : Tiles lo l hi) : ∀ s ∈ l, value lo ≤ value s.start := by
  induction l generalizing lo with
  | nil => simp
  | cons s rest ih =>
    intro s' hs'
    rcases List.mem_cons.mp hs' with rfl | hs'
    · rw [h.1]
    · -- what comes later begins behind the stop of the first span
      have h_rest := ih h.2.2 s' hs'
      have h_lt := value_lt_of_lt h.2.1
      rw [h.1] at h_lt
      linarith

/-- Nothing that is tiled lies past the end. -/
theorem Tiles.value_stop_le (h : Tiles lo l hi) : ∀ s ∈ l, value s.stop ≤ value hi := by
  induction l generalizing lo with
  | nil => simp
  | cons s rest ih =>
    intro s' hs'
    rcases List.mem_cons.mp hs' with rfl | hs'
    · -- the first span ends where the rest begins
      cases rest with
      | nil => rw [show s'.stop = hi from h.2.2]
      | cons s rest =>
        have h_rest := ih h.2.2 s List.mem_cons_self
        have h_lt := value_lt_of_lt h.2.2.2.1
        rw [← h.2.2.1]
        linarith
    · exact ih h.2.2 s' hs'

/-- Spans that are tiled begin one after the other. -/
theorem Tiles.pairwise_start_lt (h : Tiles lo l hi) :
    l.Pairwise fun s s' => s.start < s'.start := by
  induction l generalizing lo with
  | nil => exact .nil
  | cons s rest ih =>
    refine .cons ?_ (ih h.2.2)
    intro s' hs'
    have h_le := h.2.2.value_le_start s' hs'
    have h_lt := value_lt_of_lt h.2.1
    exact lt_iff.mpr ⟨isNumber_left_of_lt h.2.1,
      isNumber_left_of_lt (h.2.2.start_lt_stop s' hs'), by linarith⟩

/-- A time between the beginning and the end falls into a span. -/
theorem Tiles.exists_mem {time : α} (h : Tiles lo l hi) (h_lo : lo ≤ time) (h_hi : time < hi) :
    ∃ s ∈ l, s.start ≤ time ∧ time < s.stop := by
  induction l generalizing lo with
  | nil =>
    -- nothing lies between a time and itself
    obtain rfl : lo = hi := h
    have h_le := value_le_of_le h_lo
    have h_lt := value_lt_of_lt h_hi
    linarith
  | cons s rest ih =>
    by_cases h_in : time < s.stop
    · exact ⟨s, List.mem_cons_self, by rw [h.1]; exact h_lo, h_in⟩
    · have h_stop := (Gauge.not_lt (le_iff.mp h_lo).2.1 (isNumber_right_of_lt h.2.1)).mp h_in
      obtain ⟨s', hs', h_mem⟩ := ih h.2.2 h_stop
      exact ⟨s', List.mem_cons_of_mem _ hs', h_mem⟩

end Tiles

namespace Timeline

/-- **A tiled timeline**: the spans tile the clip, and the boundaries keep their distance from its
ends and from each other. -/
structure Tiled (t : Timeline α) : Prop where
  isFinite_duration : isFinite t.duration = true
  zero_lt_duration : 0 < t.duration
  zero_lt_epsilon : 0 < t.epsilon
  tiles : Tiles 0 t.spans t.duration
  /-- Boundaries are finite and away from the ends. -/
  inside : ∀ b ∈ t.boundaries,
    isFinite b = true ∧ t.epsilon < b ∧ b < t.duration - t.epsilon
  /-- No two boundaries are close. -/
  apart : t.boundaries.Pairwise fun b b' => t.epsilon ≤ magnitude (b - b')

variable {t t' : Timeline α} {a b : List (Span α)} {s s' l r : Span α} {time : α}

/-! ### Boundaries -/

omit [Scalar α] in
theorem boundaries_place (h : t.spans = a ++ s :: b) :
    t.boundaries = (a ++ [s]).tail.map Span.start ++ b.map Span.start := by
  rw [boundaries, h]
  cases a <;> simp

omit [Scalar α] in
/-- What is before a span and its start make the boundaries up to it. -/
theorem map_start_tail_eq (h : s'.start = s.start) :
    (a ++ [s']).tail.map Span.start = (a ++ [s]).tail.map Span.start := by
  cases a <;> simp [h]

omit [Scalar α] in
/-- Joining two neighbours takes the boundary between them away and no other. -/
theorem boundaries_join (t : Timeline α) (policy : MergePolicy) :
    ({ t with spans := a ++ l.join policy r :: b } : Timeline α).boundaries
      = (a ++ [l]).tail.map Span.start ++ b.map Span.start := by
  rw [boundaries_place rfl, map_start_tail_eq (s := l)]
  rfl

omit [Scalar α] in
theorem boundaries_eq_of_extents (h : t'.spans.map Span.extent = t.spans.map Span.extent) :
    t'.boundaries = t.boundaries := by
  have h_fst : ∀ l : List (Span α),
      l.tail.map Span.start = (l.map Span.extent).tail.map Prod.fst := by
    intro l
    cases l <;> simp [Span.extent]
  rw [boundaries, boundaries, h_fst, h_fst, h]

namespace Tiled

/-- Speeds and flags do not matter. -/
theorem of_extents (h : t.Tiled) (h_duration : t'.duration = t.duration)
    (h_epsilon : t'.epsilon = t.epsilon)
    (h_spans : t'.spans.map Span.extent = t.spans.map Span.extent) : t'.Tiled where
  isFinite_duration := by rw [h_duration]; exact h.isFinite_duration
  zero_lt_duration := by rw [h_duration]; exact h.zero_lt_duration
  zero_lt_epsilon := by rw [h_epsilon]; exact h.zero_lt_epsilon
  tiles := by rw [h_duration]; exact h.tiles.of_extents h_spans
  inside := by
    rw [h_duration, h_epsilon, boundaries_eq_of_extents h_spans]
    exact h.inside
  apart := by
    rw [h_epsilon, boundaries_eq_of_extents h_spans]
    exact h.apart

/-- A span begins at the beginning of the clip or at a boundary. -/
theorem start_eq_zero_or_mem (h : t.Tiled) (h_spans : t.spans = a ++ s :: b) :
    s.start = 0 ∨ s.start ∈ t.boundaries := by
  cases a with
  | nil =>
    have h_tiles := h.tiles
    rw [h_spans] at h_tiles
    exact Or.inl h_tiles.1
  | cons x a =>
    refine Or.inr ?_
    rw [boundaries, h_spans]
    simp

variable [Gauge α]

/-- Joining two neighbours takes their boundary away. -/
theorem join (h : t.Tiled) (h_spans : t.spans = a ++ l :: r :: b) :
    ({ t with spans := a ++ l.join t.mergePolicy r :: b } : Timeline α).Tiled := by
  have h_sub : List.Sublist ((a ++ [l]).tail.map Span.start ++ b.map Span.start) t.boundaries := by
    rw [boundaries_place h_spans, List.map_cons]
    exact (List.Sublist.refl _).append (List.sublist_cons_self _ _)
  refine ⟨h.isFinite_duration, h.zero_lt_duration, h.zero_lt_epsilon, ?_, ?_, ?_⟩
  · have h_tiles := h.tiles
    rw [h_spans, tiles_append] at h_tiles
    obtain ⟨mid, h_before, h_start, h_lt, h_meet, h_lt', h_behind⟩ := h_tiles
    -- the two spans meet, so together they are longer than nothing
    rw [← h_meet] at h_lt
    exact tiles_append.mpr ⟨mid, h_before, h_start, Gauge.lt_trans h_lt h_lt', h_behind⟩
  · rw [boundaries_join]
    exact fun x hx => h.inside x (h_sub.subset hx)
  · rw [boundaries_join]
    exact h.apart.sublist h_sub

/-- A time at which a cut may be made is finite, away from the ends and away from every boundary. -/
theorem of_isFreeForBoundary (h : t.Tiled) (h_free : t.isFreeForBoundary time = true) :
    isFinite time = true ∧ t.epsilon < time ∧ time < t.duration - t.epsilon ∧
      ∀ b ∈ t.boundaries, t.epsilon ≤ magnitude (b - time) := by
  simp only [isFreeForBoundary, isSameBoundary, Bool.and_eq_true, Bool.not_eq_true',
    decide_eq_false_iff_not, List.any_eq_false, decide_eq_true_eq] at h_free
  obtain ⟨⟨⟨h_fin, h_low⟩, h_high⟩, h_apart⟩ := h_free
  have h_time := isNumber_of_isFinite h_fin
  have h_epsilon := isNumber_right_of_lt h.zero_lt_epsilon
  refine ⟨h_fin, (Gauge.not_le h_time h_epsilon).mp h_low,
    (Gauge.not_le (isNumber_sub h.isFinite_duration h_epsilon) h_time).mp h_high, ?_⟩
  intro b hb
  exact (Gauge.not_lt (isNumber_distance (h.inside b hb).1 h_fin) h_epsilon).mp (h_apart b hb)

/-- **The span that a time falls into contains it**, its start included and its stop not. -/
theorem indexAt?_place (h : t.Tiled) (h_spans : t.spans = a ++ s :: b)
    (h_at : t.indexAt? time = some a.length) (h_lt : time < t.duration) :
    s.start ≤ time ∧ time < s.stop := by
  unfold indexAt? at h_at
  split at h_at
  · next h_range =>
    obtain ⟨x, hx, h_le, h_lt'⟩ := h.tiles.exists_mem h_range.1 h_lt
    -- some span contains the time, so the search does not fall back to the last one
    obtain ⟨i, hi⟩ : ∃ i, t.spans.findIdx? (fun s => s.start ≤ time && decide (time < s.stop))
        = some i := by
      rw [← Option.isSome_iff_exists, List.findIdx?_isSome, List.any_eq_true]
      exact ⟨x, hx, by simp [h_le, h_lt']⟩
    -- and the span that is found lies at the very place that is named
    rw [hi, Option.getD_some, Option.some.injEq] at h_at
    obtain ⟨a', s', b', h_spans', h_len, h_s', -⟩ := exists_place_of_findIdx? hi
    rw [h_spans] at h_spans'
    obtain ⟨-, h_tail⟩ := List.append_inj h_spans' (by omega)
    obtain rfl : s = s' := (List.cons.inj h_tail).1
    simpa using h_s'
  · exact absurd h_at (by simp)

/-- A cut is made strictly behind the start of the span that it falls into: the beginning of the
clip is out of reach, and at a boundary the distance would be nothing. -/
theorem start_lt_of_isFreeForBoundary (h : t.Tiled) (h_spans : t.spans = a ++ s :: b)
    (h_free : t.isFreeForBoundary time = true) (h_start : s.start ≤ time) : s.start < time := by
  obtain ⟨h_fin, h_low, -, h_apart⟩ := h.of_isFreeForBoundary h_free
  rcases h.start_eq_zero_or_mem h_spans with h_zero | h_mem
  · rw [h_zero]
    exact Gauge.lt_trans h.zero_lt_epsilon h_low
  · obtain ⟨h_num, h_num', h_le⟩ := le_iff.mp h_start
    -- on the boundary itself the computed distance would be zero, which is below `epsilon`
    have h_ne := value_ne_of_le_distance (h.inside _ h_mem).1 h_fin h.zero_lt_epsilon
      (h_apart _ h_mem)
    exact lt_iff.mpr ⟨h_num, h_num', lt_of_le_of_ne h_le h_ne⟩

/-- **A cut lies strictly inside the span that it falls into.** -/
theorem mem_of_isFreeForBoundary (h : t.Tiled) (h_spans : t.spans = a ++ s :: b)
    (h_free : t.isFreeForBoundary time = true) (h_at : t.indexAt? time = some a.length) :
    s.start < time ∧ time < s.stop := by
  obtain ⟨-, -, h_high, -⟩ := h.of_isFreeForBoundary h_free
  obtain ⟨h_start, h_stop⟩ := h.indexAt?_place h_spans h_at
    (lt_of_lt_sub h.isFinite_duration h.zero_lt_epsilon h_high)
  exact ⟨h.start_lt_of_isFreeForBoundary h_spans h_free h_start, h_stop⟩

/-- **Cutting a span keeps a timeline tiled.** -/
theorem cut (h : t.Tiled) (h_spans : t.spans = a ++ s :: b)
    (h_free : t.isFreeForBoundary time = true) (h_at : t.indexAt? time = some a.length) :
    ({ t with spans := a ++ s.cut time ++ b } : Timeline α).Tiled := by
  obtain ⟨h_fin, h_low, h_high, h_apart⟩ := h.of_isFreeForBoundary h_free
  obtain ⟨h_start, h_stop⟩ := h.mem_of_isFreeForBoundary h_spans h_free h_at
  have h_spans' : a ++ s.cut time ++ b
      = a ++ { s with stop := time } :: { s with start := time, isTrimmed := false } :: b := by
    simp [Span.cut]
  -- the boundaries are the old ones and, between two of them, the cut
  have h_boundaries : ({ t with spans := a ++ s.cut time ++ b } : Timeline α).boundaries
      = (a ++ [s]).tail.map Span.start ++ time :: b.map Span.start := by
    rw [boundaries_place h_spans', map_start_tail_eq (s := s)] <;> rfl
  have h_old := boundaries_place h_spans
  refine ⟨h.isFinite_duration, h.zero_lt_duration, h.zero_lt_epsilon, ?_, ?_, ?_⟩
  · have h_tiles := h.tiles
    rw [h_spans, tiles_append] at h_tiles
    obtain ⟨mid, h_before, h_meet, -, h_behind⟩ := h_tiles
    change Tiles 0 (a ++ s.cut time ++ b) t.duration
    rw [h_spans', tiles_append]
    exact ⟨mid, h_before, h_meet, h_start, rfl, h_stop, h_behind⟩
  · rw [h_boundaries]
    intro x hx
    rw [List.mem_append, List.mem_cons] at hx
    rcases hx with hx | rfl | hx
    · exact h.inside x (by rw [h_old]; exact List.mem_append_left _ hx)
    · -- the cut itself was checked
      exact ⟨h_fin, h_low, h_high⟩
    · exact h.inside x (by rw [h_old]; exact List.mem_append_right _ hx)
  · have h_pairwise := h.apart
    rw [h_old, List.pairwise_append] at h_pairwise
    obtain ⟨h_before, h_behind, h_across⟩ := h_pairwise
    rw [h_boundaries, List.pairwise_append, List.pairwise_cons]
    refine ⟨h_before, ⟨?_, h_behind⟩, ?_⟩
    · -- a boundary behind the cut: the check looked at the distance from the other side
      intro x hx
      have h_mem : x ∈ t.boundaries := by rw [h_old]; exact List.mem_append_right _ hx
      rw [magnitude_sub_comm h_fin (h.inside x h_mem).1]
      exact h_apart x h_mem
    · intro x hx y hy
      rcases List.mem_cons.mp hy with rfl | hy
      · exact h_apart x (by rw [h_old]; exact List.mem_append_left _ hx)
      · exact h_across x hx y hy

end Tiled

end Timeline

end ClipEdit
