import ClipEdit.Proofs.Timeline.Boundaries
import ClipEdit.Proofs.Timeline.TimeMap

/-!
# What edits do to the two clocks

A `TimeMap` is made anew after every edit, and the pieces of the new map need not be those of the old
one. Maps are therefore compared by their graphs. `PartOf` says that all that one map shows is shown
by another one, a fixed while later. For maps that cover a range of the source this settles both
directions of the smaller map, outside of its range too: `PartOf.toVisual_eq`, `PartOf.toSource_eq`.

* A cut splits one piece in two that have the same graph (`TimeMap.shows_cut`). So cuts cannot be
  heard or seen, and neither can joins of spans that have one speed: `Sound.playsAlike_of_cut`,
  `boundaries_invisible`.
* A trim takes the first or the last piece away. A trim of the start makes all that is left come
  earlier, by the visual duration of the trimmed span, and a trim of the end cuts the map off:
  `trim_moves_map`.

Everything here but `KeepsTrims` is about exact arithmetic.
-/

namespace ClipEdit

open Scalar

/-! ### Maps within maps -/

namespace TimeMap

/-- All that `m'` shows is shown by `m`, at a visual time later by `shift`. -/
def PartOf (m' m : TimeMap ℚ) (shift : ℚ) : Prop :=
  ∀ s v, Shows m'.pieces s v → Shows m.pieces s (v + shift)

variable {m m' : TimeMap ℚ} {a b a' b' shift v : ℚ}

namespace PartOf

/-- **From source to visual time**, the smaller map is the larger one, moved and held between its
ends. -/
theorem toVisual_eq (h_part : m'.PartOf m shift) (h : m.Covers a b) (h' : m'.Covers a' b')
    (s : ℚ) : m'.toVisual s = max 0 (min m'.total (m.toVisual s - shift)) := by
  have h_total := h'.zero_lt_total.le
  -- where the ends of the smaller map lie on the larger one
  have h_first : m.toVisual a' = 0 + shift :=
    h.toVisual_of_shows (h_part _ _ (h'.laid.shows_start h'.ne_nil))
  have h_last : m.toVisual b' = m'.total + shift :=
    h.toVisual_of_shows (h_part _ _ (h'.laid.shows_stop h'.ne_nil))
  rcases le_total s a' with h_le | h_low
  · -- before its range the smaller map stands still at zero, and the larger one is before `shift`
    have h_before := h.monotone_toVisual h_le
    rw [h'.toVisual_of_le h_le, max_eq_left]
    exact (min_le_right _ _).trans (by linarith)
  · rcases le_total s b' with h_high | h_ge
    · -- within its range they share a point of the graph
      obtain ⟨h_zero, h_end⟩ := h'.toVisual_mem s
      rw [h.toVisual_of_shows (h_part _ _ (h'.shows_toVisual h_low h_high)), add_sub_cancel_right,
        min_eq_right h_end, max_eq_right h_zero]
    · -- past its range it stands still at its end
      have h_behind := h.monotone_toVisual h_ge
      rw [h'.toVisual_of_ge h_ge, min_eq_left (by linarith), max_eq_right h_total]

/-- **From visual to source time**, it is the larger map, asked later. -/
theorem toSource_eq (h_part : m'.PartOf m shift) (h : m.Covers a b) (h' : m'.Covers a' b')
    (h_low : 0 ≤ v) (h_high : v ≤ m'.total) : m'.toSource v = m.toSource (v + shift) :=
  (h.toSource_of_shows (h_part _ _ (h'.shows_toSource h_low h_high))).symm

/-- A map within a map that covers the same range is that map. -/
theorem total_eq (h_part : m'.PartOf m 0) (h : m.Covers a b) (h' : m'.Covers a b) :
    m'.total = m.total := by
  have h_last := h.toVisual_of_shows (h_part _ _ (h'.laid.shows_stop h'.ne_nil))
  rw [add_zero, h.toVisual_of_ge le_rfl] at h_last
  exact h_last.symm

theorem toVisual_eq_self (h_part : m'.PartOf m 0) (h : m.Covers a b) (h' : m'.Covers a b)
    (s : ℚ) : m'.toVisual s = m.toVisual s := by
  obtain ⟨h_zero, h_end⟩ := h.toVisual_mem s
  rw [h_part.toVisual_eq h h', h_part.total_eq h h', sub_zero, min_eq_right h_end,
    max_eq_right h_zero]

theorem toSource_eq_self (h_part : m'.PartOf m 0) (h : m.Covers a b) (h' : m'.Covers a b)
    (v : ℚ) : m'.toSource v = m.toSource v := by
  have h_total := h_part.total_eq h h'
  rcases le_total v 0 with h_le | h_low
  · rw [h'.toSource_of_le h_le, h.toSource_of_le h_le]
  · rcases le_total v m'.total with h_high | h_ge
    · rw [h_part.toSource_eq h h' h_low h_high, add_zero]
    · rw [h'.toSource_of_ge h_ge, h.toSource_of_ge (h_total.symm.le.trans h_ge)]

end PartOf

end TimeMap

/-! ### Laying spans out -/

namespace Scalar.Exact

@[simp] theorem sum_nil : sum ([] : List ℚ) = 0 := rfl

/-- In exact arithmetic it does not matter from which end a sum is added up. -/
theorem sum_cons (x : ℚ) (l : List ℚ) : sum (x :: l) = x + sum l := by
  rw [sum]
  induction l generalizing x with
  | nil => exact (add_zero x).symm
  | cons y l ih =>
    rw [List.foldl_cons, ih, sum, ih]
    exact add_assoc x y (sum l)

theorem sum_append (l l' : List ℚ) : sum (l ++ l') = sum l + sum l' := by
  induction l with
  | nil => exact (zero_add (sum l')).symm
  | cons x l ih => rw [List.cons_append, sum_cons, sum_cons, ih, add_assoc]

/-- Nor does it matter in which order the items are added. -/
theorem sum_perm {l l' : List ℚ} (h : l.Perm l') : sum l = sum l' := by
  induction h with
  | nil => rfl
  | cons x _ ih => rw [sum_cons, sum_cons, ih]
  | swap x y l => rw [sum_cons, sum_cons, sum_cons, sum_cons, add_left_comm]
  | trans _ _ ih ih' => exact ih.trans ih'

end Scalar.Exact

namespace TimeMap

theorem shows_append {p q : List (Piece ℚ)} {s v : ℚ} :
    Shows (p ++ q) s v ↔ Shows p s v ∨ Shows q s v := by
  simp only [Shows, List.mem_append, or_and_right, exists_or]

/-- What comes later is laid out from where the visual durations before it have led. -/
theorem layOut_append (c : ℚ) (l l' : List (Span ℚ)) :
    layOut c (l ++ l') = layOut c l ++ layOut (c + sum (l.map Span.visualDuration)) l' := by
  induction l generalizing c with
  | nil => simp [layOut]
  | cons s rest ih =>
    rw [List.cons_append, layOut, layOut, ih, List.map_cons, Exact.sum_cons, ← add_assoc]
    rfl

variable {c s v x : ℚ} {l mid mid' : List (Span ℚ)}

/-- Spans laid out later are shown later. -/
theorem shows_layOut_add (h : Shows (layOut c l) s v) (d : ℚ) :
    Shows (layOut (c + d) l) s (v + d) := by
  induction l generalizing c with
  | nil =>
    obtain ⟨p, hp, -⟩ := h
    exact absurd hp (by simp [layOut])
  | cons x rest ih =>
    obtain ⟨p, hp, h_low, h_high, h_v⟩ := h
    rcases List.mem_cons.mp hp with rfl | hp
    · refine ⟨_, List.mem_cons_self, h_low, h_high, ?_⟩
      rw [h_v]
      dsimp only
      ring
    · obtain ⟨q, hq, h_q⟩ := ih ⟨p, hp, h_low, h_high, h_v⟩
      -- the cursor moves by the same duration, wherever it is
      have h_next : c + x.visualDuration + d = c + d + x.visualDuration := add_right_comm _ _ _
      rw [h_next] at hq
      exact ⟨q, List.mem_cons_of_mem _ hq, h_q⟩

/-- Spans in the middle may be replaced by others that show as much and last as long. -/
theorem shows_layOut_place (k k' : List (Span ℚ))
    (h_sum : sum (mid'.map Span.visualDuration) = sum (mid.map Span.visualDuration))
    (h_mid : ∀ c s v, Shows (layOut c mid) s v → Shows (layOut c mid') s v)
    (h : Shows (layOut c (k ++ (mid ++ k'))) s v) :
    Shows (layOut c (k ++ (mid' ++ k'))) s v := by
  rw [layOut_append, layOut_append, shows_append, shows_append] at h ⊢
  rw [h_sum]
  exact h.imp_right (Or.imp_left (h_mid _ _ _))

variable {span : Span ℚ} {time : ℚ}

theorem sum_visualDuration_cut (h_shown : span.isTrimmed = false) :
    sum ((span.cut time).map Span.visualDuration) = span.visualDuration := by
  have h_left := Span.visualDuration_of_shown (s := { span with stop := time }) h_shown
  have h_right := Span.visualDuration_of_shown
    (s := { span with start := time, isTrimmed := false }) rfl
  rw [Span.cut, List.map_cons, List.map_cons, List.map_nil, Exact.sum_cons, Exact.sum_cons,
    Exact.sum_nil, h_left, h_right, Span.visualDuration_of_shown h_shown]
  ring

/-- **A cut takes nothing from the graph.** What was shown before the cut is shown by the half in
front, all else by the half behind it. -/
theorem shows_cut (h_shown : span.isTrimmed = false) (h : Shows (layOut c [span]) x v) :
    Shows (layOut c (span.cut time)) x v := by
  obtain ⟨p, hp, h_low, h_high, h_v⟩ := h
  obtain rfl := List.mem_singleton.mp hp
  rw [Span.cut, layOut, layOut, layOut]
  by_cases h_in : x ≤ time
  · exact ⟨_, List.mem_cons_self, h_low, h_in, h_v⟩
  · refine ⟨_, List.mem_cons_of_mem _ List.mem_cons_self, (not_le.mp h_in).le, h_high, ?_⟩
    rw [h_v, Span.visualDuration_of_shown (s := { span with stop := time }) h_shown]
    dsimp only
    ring

section Total

variable {α : Type} [Scalar α]

/-- Laying spans out adds their durations up, one after the other, from the cursor on. -/
theorem getLast?_layOut (cursor : α) (s : Span α) (rest : List (Span α)) :
    (layOut cursor (s :: rest)).getLast?.map Piece.visualStop =
      some ((rest.map Span.visualDuration).foldl (fun total x => total + x)
        (cursor + s.visualDuration)) := by
  induction rest generalizing cursor s with
  | nil => rfl
  | cons s' rest ih =>
    rw [List.map_cons, List.foldl_cons, ← ih, layOut, layOut, List.getLast?_cons_cons]

/-- **The total of a map is the visual duration of its timeline.** The two add up the same durations
in the same order, but the map begins with zero, and this must not show in what comes next. -/
theorem total_eq_visualDuration {t : Timeline α}
    (h_zero : ∀ s ∈ t.activeSpans, 0 + s.visualDuration = s.visualDuration) :
    (ofTimeline t).total = t.visualDuration := by
  have h_total : (ofTimeline t).total =
      ((layOut 0 t.activeSpans).getLast?.map Piece.visualStop).getD 0 := by
    rw [ofTimeline, total]
    cases (layOut 0 t.activeSpans).getLast? <;> rfl
  rw [h_total, Timeline.visualDuration]
  cases h_active : t.activeSpans with
  | nil => rfl
  | cons s rest =>
    rw [getLast?_layOut, h_zero s (h_active ▸ List.mem_cons_self)]
    rfl

end Total

theorem total_ofTimeline (t : Timeline ℚ) : (ofTimeline t).total = t.visualDuration :=
  total_eq_visualDuration fun s _ => zero_add s.visualDuration

end TimeMap

namespace Timeline

/-! ### Edits of what is shown -/

section Place

variable {α : Type} {t t' : Timeline α} {a b mid mid' : List (Span α)}

/-- With all spans of a place shown, what is shown is that place and what is shown around it. -/
theorem activeSpans_place (h : t.spans = a ++ (mid ++ b)) (h_mid : ∀ s ∈ mid, s.isTrimmed = false) :
    t.activeSpans
      = a.filter (fun s => !s.isTrimmed) ++ (mid ++ b.filter fun s => !s.isTrimmed) := by
  have h_all : mid.filter (fun s => !s.isTrimmed) = mid :=
    List.filter_eq_self.mpr fun s hs => by simp [h_mid s hs]
  rw [activeSpans, h, List.filter_append, List.filter_append, h_all]

/-- And what is trimmed lies around it. -/
theorem trimmedSegments_place (h : t.spans = a ++ (mid ++ b))
    (h_mid : ∀ s ∈ mid, s.isTrimmed = false) :
    t.trimmedSegments.map Segment.toSpan = a.filter Span.isTrimmed ++ b.filter Span.isTrimmed := by
  have h_none : mid.filter Span.isTrimmed = [] :=
    List.filter_eq_nil_iff.mpr fun s hs => by simp [h_mid s hs]
  have h_spans : t.trimmedSegments.map Segment.toSpan = t.spans.filter Span.isTrimmed := by
    rw [← t.map_toSpan_segments, List.filter_map]
    rfl
  rw [h_spans, h, List.filter_append, List.filter_append, h_none, List.nil_append]

/-- An edit that keeps the trims: the range they leave, their log and the trimmed spans with their
speeds. -/
structure KeepsTrims [Scalar α] (t t' : Timeline α) : Prop where
  trimRange : t'.trimRange = t.trimRange
  trims : t'.trims = t.trims
  trimmed : t'.trimmedSegments.map Segment.toSpan = t.trimmedSegments.map Segment.toSpan

variable [Scalar α]

/-- The range that the trims leave is a matter of the first start and the last stop. -/
theorem trimRange_eq (t : Timeline α) :
    t.trimRange = ⟨(t.activeSpans.head?.map Span.start).getD 0,
      (t.activeSpans.getLast?.map Span.stop).getD t.duration⟩ := by
  unfold trimRange
  cases t.activeSpans with
  | nil => rfl
  | cons s rest => rw [List.head?_cons, List.getLast?_cons]; rfl

/-- Spans that are shown may be replaced by others that begin and end where they do. -/
theorem keepsTrims_of_place (h : t.spans = a ++ (mid ++ b))
    (h_mid : ∀ s ∈ mid, s.isTrimmed = false) (h_mid' : ∀ s ∈ mid', s.isTrimmed = false)
    (h_start : mid'.head?.map Span.start = mid.head?.map Span.start)
    (h_stop : mid'.getLast?.map Span.stop = mid.getLast?.map Span.stop) :
    t.KeepsTrims { t with spans := a ++ (mid' ++ b) } where
  trimRange := by
    rw [trimRange_eq, trimRange_eq, activeSpans_place h h_mid, activeSpans_place rfl h_mid']
    simp only [List.head?_append, List.getLast?_append, Option.map_or, h_start, h_stop]
  trims := rfl
  trimmed := by rw [trimmedSegments_place h h_mid, trimmedSegments_place rfl h_mid']

end Place

/-- Two timelines that play alike: they last as long, and both clocks agree at every time. -/
structure PlaysAlike (t t' : Timeline ℚ) : Prop where
  visualDuration : t'.visualDuration = t.visualDuration
  toVisual : ∀ s, (TimeMap.ofTimeline t').toVisual s = (TimeMap.ofTimeline t).toVisual s
  toSource : ∀ v, (TimeMap.ofTimeline t').toSource v = (TimeMap.ofTimeline t).toSource v

theorem PlaysAlike.symm {t t' : Timeline ℚ} (h : t.PlaysAlike t') : t'.PlaysAlike t :=
  ⟨h.visualDuration.symm, fun s => (h.toVisual s).symm, fun v => (h.toSource v).symm⟩

/-- **A cut cannot be heard or seen.** -/
theorem Sound.playsAlike_of_cut {t t' : Timeline ℚ} {a b : List (Span ℚ)} {s : Span ℚ} {time : ℚ}
    (h : t.Sound) (h' : t'.Sound) (h_spans : t.spans = a ++ ([s] ++ b))
    (h_spans' : t'.spans = a ++ (s.cut time ++ b)) (hs : s.isTrimmed = false)
    (h_range : t'.trimRange = t.trimRange) : t.PlaysAlike t' := by
  have h_halves : ∀ x ∈ s.cut time, x.isTrimmed = false := by
    simp [Span.cut, hs]
  -- all that was shown is shown by the new map, at the same time
  have h_part : (TimeMap.ofTimeline t).PartOf (TimeMap.ofTimeline t') 0 := by
    intro x v h_x
    rw [add_zero]
    rw [TimeMap.ofTimeline, activeSpans_place h_spans (by simpa using hs)] at h_x
    rw [TimeMap.ofTimeline, activeSpans_place h_spans' h_halves]
    refine TimeMap.shows_layOut_place _ _ ?_ (fun c x v => TimeMap.shows_cut hs) h_x
    rw [TimeMap.sum_visualDuration_cut hs]
    rfl
  have h_covers := h.covers
  have h_covers' := h'.covers
  rw [h_range] at h_covers'
  refine ⟨?_, fun x => (h_part.toVisual_eq_self h_covers' h_covers x).symm,
    fun v => (h_part.toSource_eq_self h_covers' h_covers v).symm⟩
  rw [← TimeMap.total_ofTimeline, ← TimeMap.total_ofTimeline]
  exact (h_part.total_eq h_covers' h_covers).symm

/-! ### Boundaries -/

namespace Sound

variable {t : Timeline ℚ} {time : ℚ}

theorem addBoundary_invisible (h : t.Sound) (h_accepted : (t.addBoundary time).accepted = true) :
    t.KeepsTrims (t.addBoundary time).state ∧ t.PlaysAlike (t.addBoundary time).state := by
  have h' := h.addBoundary time
  rcases t.addBoundary_cases time with h_eq | ⟨a, s, b, h_spans, hs, -, -, h_eq⟩
  · rw [h_eq] at h_accepted
    exact absurd h_accepted (by simp)
  · rw [h_eq, Outcome.state_accept, List.append_assoc] at h' ⊢
    have h_place : t.spans = a ++ ([s] ++ b) := h_spans
    have h_keeps : t.KeepsTrims { t with spans := a ++ (s.cut time ++ b) } :=
      keepsTrims_of_place h_place (by simpa using hs) (by simp [Span.cut, hs]) rfl rfl
    exact ⟨h_keeps, h.playsAlike_of_cut h' h_place rfl hs h_keeps.trimRange⟩

/-- A join of two spans of one speed is a cut, seen from behind. -/
theorem removeBoundary_invisible (h : t.Sound)
    (h_accepted : (t.removeBoundary time).accepted = true) :
    t.KeepsTrims (t.removeBoundary time).state ∧
      ∃ a l r b, t.spans = a ++ l :: r :: b ∧
        (t.boundaries.findIdx? fun x => t.isSameBoundary x time) = some a.length ∧
        (t.removeBoundary time).state.spans = a ++ l.join t.mergePolicy r :: b ∧
        (l.speed = r.speed → t.PlaysAlike (t.removeBoundary time).state) := by
  have h' := h.removeBoundary time
  rcases t.removeBoundary_cases time with h_eq | ⟨a, l, r, b, h_spans, hl, hr, h_at, h_eq⟩
  · rw [h_eq] at h_accepted
    exact absurd h_accepted (by simp)
  · rw [h_eq, Outcome.state_accept] at h' ⊢
    -- the joined span takes the place of two, none of them trimmed
    have h_place : t.spans = a ++ ([l, r] ++ b) := h_spans
    have h_keeps : t.KeepsTrims { t with spans := a ++ ([l.join t.mergePolicy r] ++ b) } :=
      keepsTrims_of_place h_place (by simp [hl, hr]) (by simpa [Span.join] using hl) rfl rfl
    refine ⟨h_keeps, a, l, r, b, h_spans, h_at, rfl, fun h_speed => ?_⟩
    obtain ⟨-, -, -, -, h_meet, -⟩ := tiles_append.mp (h_spans ▸ h.tiled.tiles)
    -- cut at the old boundary, the joined span is the two spans again
    have h_halves : t.spans = a ++ ((l.join t.mergePolicy r).cut r.start ++ b) := by
      rw [Span.cut_join t.mergePolicy h_meet.symm h_speed hr]
      exact h_place
    exact (h'.playsAlike_of_cut h rfl h_halves hl h_keeps.trimRange.symm).symm

end Sound

/-- **Boundaries are invisible.** In a reachable timeline a cut changes neither the trims nor what is
played, at any time. A join keeps the trims, and where the two spans had one speed, it does not
change what is played either. -/
theorem boundaries_invisible {t : Timeline ℚ} (h : t.Reachable) (h_epsilon : 0 < t.epsilon) :
    (∀ time, (t.addBoundary time).accepted = true →
        t.KeepsTrims (t.addBoundary time).state ∧ t.PlaysAlike (t.addBoundary time).state) ∧
      ∀ time, (t.removeBoundary time).accepted = true →
        t.KeepsTrims (t.removeBoundary time).state ∧
          ∃ a l r b, t.spans = a ++ l :: r :: b ∧
            (t.boundaries.findIdx? fun x => t.isSameBoundary x time) = some a.length ∧
            (t.removeBoundary time).state.spans = a ++ l.join t.mergePolicy r :: b ∧
            (l.speed = r.speed → t.PlaysAlike (t.removeBoundary time).state) :=
  ⟨fun _ => (h.sound h_epsilon).addBoundary_invisible,
    fun _ => (h.sound h_epsilon).removeBoundary_invisible⟩

/-- A cut in the middle of a span at double speed, and a join of the two behind it. -/
theorem boundaries_invisible_of_two_speeds :
    ∃ t : Timeline ℚ, t.Reachable ∧ 0 < t.epsilon ∧
      (t.addBoundary 5).accepted = true ∧ t.PlaysAlike (t.addBoundary 5).state ∧
      (t.removeBoundary 9).accepted = true ∧ t.PlaysAlike (t.removeBoundary 9).state := by
  obtain ⟨t, h_t⟩ : ∃ t : Timeline ℚ, run ⟨10, [⟨0, 10, 1.0, false⟩], [], 1 / 100, .keepLeft⟩
      [.edit (.addBoundary 4), .edit (.addBoundary 7), .edit (.addBoundary 9),
        .edit (.setSpeed 1 2), .edit (.trim 0)] = t := ⟨_, rfl⟩
  have h : t.Reachable := ⟨10, 1 / 100, .keepLeft, _, _, rfl, h_t⟩
  have h_facts : 0 < t.epsilon ∧ (t.addBoundary 5).accepted = true ∧
      (t.removeBoundary 9).accepted = true ∧
      (t.boundaries.findIdx? fun x => t.isSameBoundary x 9) = some 2 ∧
      t.spans[2]? = some ⟨7, 9, 1, false⟩ ∧ t.spans[3]? = some ⟨9, 10, 1, false⟩ := by
    rw [← h_t]
    decide +kernel
  obtain ⟨h_epsilon, h_cut, h_join, h_two, h_left, h_right⟩ := h_facts
  obtain ⟨h_add, h_remove⟩ := boundaries_invisible h h_epsilon
  obtain ⟨-, a, l, r, b, h_spans, h_at, -, h_alike⟩ := h_remove 9 h_join
  -- the two spans that are joined play at normal speed
  have h_len : a.length = 2 := Option.some.inj (h_at.symm.trans h_two)
  have h_l : t.spans[a.length]? = some l := by simp [h_spans]
  have h_r : t.spans[a.length + 1]? = some r := by simp [h_spans]
  rw [h_len, h_left] at h_l
  rw [h_len, h_right] at h_r
  obtain rfl := Option.some.inj h_l
  obtain rfl := Option.some.inj h_r
  exact ⟨t, h, h_epsilon, h_cut, (h_add 5 h_cut).2, h_join, h_alike rfl⟩

/-! ### Trims -/

end Timeline

namespace TimeMap

/-- The map `m'` is `m` without the first `d` of its visual time. -/
structure DropsStart (m m' : TimeMap ℚ) (d : ℚ) : Prop where
  total : m'.total = m.total - d
  toVisual : ∀ s, m'.toVisual s = max 0 (m.toVisual s - d)
  toSource : ∀ v, 0 ≤ v → v ≤ m.total - d → m'.toSource v = m.toSource (v + d)

/-- The map `m'` is `m` without the last `d` of its visual time. -/
structure DropsStop (m m' : TimeMap ℚ) (d : ℚ) : Prop where
  total : m'.total = m.total - d
  toVisual : ∀ s, m'.toVisual s = min (m.total - d) (m.toVisual s)
  toSource : ∀ v, 0 ≤ v → v ≤ m.total - d → m'.toSource v = m.toSource v

end TimeMap

namespace Timeline

namespace Sound

variable {t t' : Timeline ℚ} {s : Span ℚ} {rest : List (Span ℚ)}

/-- Without its first span, a timeline plays all that is left earlier, by the duration of that
span. -/
theorem dropsStart (h : t.Sound) (h' : t'.Sound) (h_active : t.activeSpans = s :: rest)
    (h_active' : t'.activeSpans = rest) :
    (TimeMap.ofTimeline t).DropsStart (TimeMap.ofTimeline t') s.visualDuration := by
  have h_total :
      (TimeMap.ofTimeline t').total = (TimeMap.ofTimeline t).total - s.visualDuration := by
    rw [TimeMap.total_ofTimeline, TimeMap.total_ofTimeline, visualDuration, visualDuration,
      h_active, h_active', List.map_cons, Exact.sum_cons, add_sub_cancel_left]
  have h_part : (TimeMap.ofTimeline t').PartOf (TimeMap.ofTimeline t) s.visualDuration := by
    intro x v h_x
    rw [TimeMap.ofTimeline, h_active'] at h_x
    rw [TimeMap.ofTimeline, h_active]
    obtain ⟨p, hp, h_p⟩ := TimeMap.shows_layOut_add h_x s.visualDuration
    exact ⟨p, List.mem_cons_of_mem _ hp, h_p⟩
  refine ⟨h_total, fun x => ?_, fun v h_low h_high => ?_⟩
  · -- no time is shown later than the old end, so the new end holds nothing back
    have h_end := sub_le_sub_right (h.covers.toVisual_mem x).2 s.visualDuration
    rw [h_part.toVisual_eq h.covers h'.covers, h_total, min_eq_right h_end]
  · exact h_part.toSource_eq h.covers h'.covers h_low (h_high.trans h_total.ge)

/-- Without its last span, it plays all that is left when it did before. -/
theorem dropsStop (h : t.Sound) (h' : t'.Sound) (h_active : t.activeSpans = rest ++ [s])
    (h_active' : t'.activeSpans = rest) :
    (TimeMap.ofTimeline t).DropsStop (TimeMap.ofTimeline t') s.visualDuration := by
  have h_total :
      (TimeMap.ofTimeline t').total = (TimeMap.ofTimeline t).total - s.visualDuration := by
    rw [TimeMap.total_ofTimeline, TimeMap.total_ofTimeline, visualDuration, visualDuration,
      h_active, h_active', List.map_append, Exact.sum_append, List.map_singleton, Exact.sum_cons,
      Exact.sum_nil, add_zero, add_sub_cancel_right]
  have h_part : (TimeMap.ofTimeline t').PartOf (TimeMap.ofTimeline t) 0 := by
    intro x v h_x
    rw [TimeMap.ofTimeline, h_active'] at h_x
    rw [TimeMap.ofTimeline, h_active, TimeMap.layOut_append, TimeMap.shows_append, add_zero]
    exact Or.inl h_x
  refine ⟨h_total, fun x => ?_, fun v h_low h_high => ?_⟩
  · have h_zero := le_min h'.covers.zero_lt_total.le (h.covers.toVisual_mem x).1
    rw [h_part.toVisual_eq h.covers h'.covers, sub_zero, max_eq_right h_zero, h_total]
  · rw [h_part.toSource_eq h.covers h'.covers h_low (h_high.trans h_total.ge), add_zero]

end Sound

/-- **What a trim does to the two clocks.** A span that is shown is trimmed at the start exactly when
it is the first one. The new map is then the old one without the visual duration of that span at its
beginning; otherwise it is the old one without that much at its end. Something is left in both
cases. -/
theorem trim_moves_map {t : Timeline ℚ} (h : t.Reachable) (h_epsilon : 0 < t.epsilon) {i : Nat}
    {s : Span ℚ} (h_get : t.spans[i]? = some s) (hs : s.isTrimmed = false)
    (h_accepted : (t.trim i).accepted = true) :
    let m := TimeMap.ofTimeline t
    let m' := TimeMap.ofTimeline (t.trim i).state
    0 < m.total - s.visualDuration ∧
      ∃ side, (t.trim i).state.trims = t.trims ++ [⟨side, s.start⟩] ∧
        (side = .start ↔ t.firstActive? = some i) ∧
        (side = .start → m.DropsStart m' s.visualDuration) ∧
        (side = .stop → m.DropsStop m' s.visualDuration) := by
  have h_sound := h.sound h_epsilon
  have h_sound' := h_sound.trim i
  have h_pos := h_sound'.covers.zero_lt_total
  obtain ⟨lead, shown, trail, h_parted⟩ := h_sound.parted
  have h_first := h_parted.firstActive?_eq
  have h_active := h_parted.activeSpans_eq
  rcases h_parted.trim_shown h_get hs h_accepted with ⟨rest, rfl, h_ne, rfl, h_eq⟩
    | ⟨rest, rfl, h_ne, rfl, h_eq⟩
  · have h_hidden := (h_parted.hide_first h_ne).activeSpans_eq
    rw [h_eq, Outcome.state_accept] at h_sound' h_pos ⊢
    -- what is shown afterwards is what was shown, without its head
    have h_drops := h_sound.dropsStart h_sound' h_active h_hidden
    rw [h_drops.total] at h_pos
    exact ⟨h_pos, .start, rfl, by simp [h_first], fun _ => h_drops, by simp⟩
  · have h_hidden := (h_parted.hide_last h_ne).activeSpans_eq
    rw [h_eq, Outcome.state_accept] at h_sound' h_pos ⊢
    -- or without its last item
    have h_drops := h_sound.dropsStop h_sound' h_active h_hidden
    rw [h_drops.total] at h_pos
    exact ⟨h_pos, .stop, rfl, by simp [h_first, h_ne], by simp, fun _ => h_drops⟩

theorem trim_moves_map_of_both_sides :
    ∃ t : Timeline ℚ, t.Reachable ∧ 0 < t.epsilon ∧ (TimeMap.ofTimeline t).total = 9 / 2 ∧
      (t.trim 1).accepted = true ∧
      (TimeMap.ofTimeline t).DropsStart (TimeMap.ofTimeline (t.trim 1).state) (3 / 2) ∧
      (t.trim 2).accepted = true ∧
      (TimeMap.ofTimeline t).DropsStop (TimeMap.ofTimeline (t.trim 2).state) 3 := by
  obtain ⟨t, h_t⟩ : ∃ t : Timeline ℚ, run ⟨10, [⟨0, 10, 1.0, false⟩], [], 1 / 100, .keepLeft⟩
      [.edit (.addBoundary 4), .edit (.addBoundary 7), .edit (.setSpeed 1 2), .edit (.trim 0)]
      = t := ⟨_, rfl⟩
  have h : t.Reachable := ⟨10, 1 / 100, .keepLeft, _, _, rfl, h_t⟩
  have h_facts : 0 < t.epsilon ∧ (TimeMap.ofTimeline t).total = 9 / 2 ∧
      (t.trim 1).accepted = true ∧ (t.trim 2).accepted = true ∧ t.firstActive? = some 1 ∧
      t.spans[1]? = some ⟨4, 7, 2, false⟩ ∧ t.spans[2]? = some ⟨7, 10, 1, false⟩ := by
    rw [← h_t]
    decide +kernel
  obtain ⟨h_epsilon, h_total, h_one, h_two, h_first, h_left, h_right⟩ := h_facts
  have h_three : Span.visualDuration (⟨7, 10, 1, false⟩ : Span ℚ) = 3 := by decide +kernel
  have h_half : Span.visualDuration (⟨4, 7, 2, false⟩ : Span ℚ) = 3 / 2 := by decide +kernel
  obtain ⟨-, side, -, h_side, h_start, -⟩ := trim_moves_map h h_epsilon h_left rfl h_one
  obtain ⟨-, side', -, h_side', -, h_stop⟩ := trim_moves_map h h_epsilon h_right rfl h_two
  rw [h_half] at h_start
  rw [h_three] at h_stop
  refine ⟨t, h, h_epsilon, h_total, h_one, h_start (h_side.mpr h_first), h_two, h_stop ?_⟩
  -- the third span is not the first one that is shown
  cases side' with
  | start => exact absurd (h_first.symm.trans (h_side'.mp rfl)) (by simp)
  | stop => rfl

end Timeline

end ClipEdit
