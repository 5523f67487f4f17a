import ClipEdit.Proofs.Timeline.Playback

/-!
# Changes of speed and joins are local

A time of the source is shown after all that has been played before it. `Span.playedBy` says how
much of a span that is: nothing as long as the span has not begun, its whole visual duration once it
is over, and in between as much as its speed lets through. The two scans over the pieces of a map
have a running cursor, so one changed span shifts the cursor for all that follow; a sum has none:

* `Sound.toVisual_eq` — the visual time of a source time is the sum of what every span has played by
  then, whatever the speeds and the trims are.

In the sum a span stands for itself. Where the spans from `lo` to `hi` are replaced by others
(`playedBy_place`), no term changes up to `lo`, and from `hi` on all terms but theirs are the same.
So an edit in one place leaves the clock alone before that place and moves it by one and the same
delay behind it (`TimeMap.Delays`):

* `Sound.delays_setSpeed`, `Sound.toVisual_setSpeed` — a change of speed;
* `Sound.delays_join` — a join;
* `retiming_local` — both of them for reachable timelines.

Everything here is about exact arithmetic.
-/

namespace ClipEdit

open Scalar

/-! ### What has been played -/

/-- How long a span has been shown when the source has come to a time. -/
def Span.playedBy (time : ℚ) (s : Span ℚ) : ℚ :=
  if s.isTrimmed then 0 else (max s.start (min time s.stop) - s.start) / s.speed

/-- How long spans have been shown, all together. -/
def playedBy (time : ℚ) (l : List (Span ℚ)) : ℚ := sum (l.map (Span.playedBy time))

namespace Span

variable {s : Span ℚ} {time : ℚ}

theorem playedBy_of_isTrimmed (h : s.isTrimmed = true) : s.playedBy time = 0 := if_pos h

/-- A span that is shown plays at its speed. -/
theorem playedBy_of_mem (h : s.isTrimmed = false) (h_start : s.start ≤ time)
    (h_stop : time ≤ s.stop) : s.playedBy time = (time - s.start) / s.speed := by
  rw [playedBy, h, if_neg Bool.false_ne_true, min_eq_left h_stop, max_eq_right h_start]

/-- Before it begins, nothing of a span has been played. -/
theorem playedBy_of_le (h : time ≤ s.start) : s.playedBy time = 0 := by
  rw [playedBy, max_eq_left ((min_le_left _ _).trans h), sub_self, zero_div, ite_self]

/-- When it is over, all of it has been. -/
theorem playedBy_of_ge (h_lt : s.start < s.stop) (h : s.stop ≤ time) :
    s.playedBy time = s.visualDuration := by
  rw [playedBy, min_eq_right h, max_eq_right h_lt.le]
  rfl

end Span

section PlayedBy

variable {time lo hi : ℚ} {l mid mid' : List (Span ℚ)}

theorem playedBy_cons (time : ℚ) (s : Span ℚ) (l : List (Span ℚ)) :
    playedBy time (s :: l) = s.playedBy time + playedBy time l := by
  rw [playedBy, List.map_cons, Exact.sum_cons]
  rfl

theorem playedBy_append (time : ℚ) (l l' : List (Span ℚ)) :
    playedBy time (l ++ l') = playedBy time l + playedBy time l' := by
  rw [playedBy, List.map_append, Exact.sum_append]
  rfl

/-- What is trimmed has nothing to add. -/
theorem playedBy_filter (time : ℚ) (l : List (Span ℚ)) :
    playedBy time (l.filter fun s => !s.isTrimmed) = playedBy time l := by
  induction l with
  | nil => rfl
  | cons s rest ih =>
    rw [playedBy_cons, List.filter_cons]
    cases hs : s.isTrimmed with
    | false => rw [Bool.not_false, if_pos rfl, playedBy_cons, ih]
    | true => rw [Bool.not_true, if_neg Bool.false_ne_true, ih, Span.playedBy_of_isTrimmed hs, zero_add]

/-- Nothing has been played of what is yet to come. -/
theorem Tiles.playedBy_of_le (h : Tiles lo l hi) (h_le : time ≤ lo) : playedBy time l = 0 := by
  induction l generalizing lo with
  | nil => rfl
  | cons s rest ih =>
    obtain ⟨rfl, h_lt, h_rest⟩ := h
    rw [playedBy_cons, Span.playedBy_of_le h_le, ih h_rest (h_le.trans h_lt.le), add_zero]

/-- All has been played of what is over. -/
theorem Tiles.playedBy_of_ge (h : Tiles lo l hi) (h_ge : hi ≤ time) :
    playedBy time l = sum (l.map Span.visualDuration) := by
  have h_span : ∀ s ∈ l, s.playedBy time = s.visualDuration := by
    intro s hs
    exact Span.playedBy_of_ge (h.start_lt_stop s hs) ((h.value_stop_le s hs).trans h_ge)
  rw [playedBy, List.map_congr_left h_span]

/-- **The scan adds up what has been played**, from wherever its cursor stands. -/
theorem Tiles.scanSource_layOut (time c : ℚ) (h : Tiles lo l hi)
    (h_shown : ∀ s ∈ l, s.isTrimmed = false) :
    TimeMap.scanSource time (c + sum (l.map Span.visualDuration)) (TimeMap.layOut c l)
      = c + playedBy time l := by
  induction l generalizing lo c with
  | nil => rfl
  | cons s rest ih =>
    have h_all := h
    obtain ⟨rfl, h_lt, h_rest⟩ := h
    have hs := h_shown s List.mem_cons_self
    rw [TimeMap.layOut, TimeMap.scanSource]
    dsimp only
    split
    · next h_before =>
      -- the scan stops at once, and nothing has been played
      rw [h_all.playedBy_of_le h_before.le, add_zero]
    · next h_begun =>
      rw [playedBy_cons]
      split
      · next h_in =>
        -- the scan stops here, and of the rest nothing has been played
        rw [Span.playedBy_of_mem hs (not_lt.mp h_begun) h_in, h_rest.playedBy_of_le h_in, add_zero]
      · next h_over =>
        rw [List.map_cons, Exact.sum_cons, ← add_assoc, ← add_assoc,
          Span.playedBy_of_ge h_lt (not_le.mp h_over).le]
        exact ih _ h_rest fun x hx => h_shown x (List.mem_cons_of_mem _ hx)

/-- **One place changes.** When the spans from `lo` to `hi` are replaced, nothing that has been played
up to `lo` is different, and from `hi` on the difference is that of their visual durations. -/
theorem playedBy_place (a b : List (Span ℚ)) (h_mid : Tiles lo mid hi) (h_mid' : Tiles lo mid' hi) :
    (∀ x, x ≤ lo → playedBy x (a ++ (mid' ++ b)) = playedBy x (a ++ (mid ++ b))) ∧
      ∀ x, hi ≤ x → playedBy x (a ++ (mid' ++ b)) = playedBy x (a ++ (mid ++ b)) +
        (sum (mid'.map Span.visualDuration) - sum (mid.map Span.visualDuration)) := by
  constructor
  · intro x hx
    rw [playedBy_append, playedBy_append, playedBy_append, playedBy_append,
      h_mid.playedBy_of_le hx, h_mid'.playedBy_of_le hx]
  · intro x hx
    rw [playedBy_append, playedBy_append, playedBy_append, playedBy_append,
      h_mid.playedBy_of_ge hx, h_mid'.playedBy_of_ge hx]
    ring

end PlayedBy

/-! ### The clock as a sum -/

namespace TimeMap

/-- The map `m'` is `m` up to the source time `lo`, and from `hi` on it shows everything later by
`delay`. -/
structure Delays (m m' : TimeMap ℚ) (lo hi delay : ℚ) : Prop where
  before : ∀ x, x ≤ lo → m'.toVisual x = m.toVisual x
  behind : ∀ x, hi ≤ x → m'.toVisual x = m.toVisual x + delay

end TimeMap

namespace Timeline

variable {t t' : Timeline ℚ} {a b mid mid' : List (Span ℚ)} {s l r : Span ℚ} {lo hi : ℚ}

/-- **The visual time of a source time** is what all spans have played by then. -/
theorem Sound.toVisual_eq (h : t.Sound) (x : ℚ) :
    (TimeMap.ofTimeline t).toVisual x = playedBy x t.spans := by
  obtain ⟨lead, shown, trail, h_parted⟩ := h.parted
  have h_scan := (h_parted.tiles_shown h.tiled).scanSource_layOut x 0
    h_parted.isTrimmed_shown
  rw [zero_add, zero_add, ← h_parted.activeSpans_eq] at h_scan
  have h_total : (TimeMap.ofTimeline t).total = sum (t.activeSpans.map Span.visualDuration) :=
    TimeMap.total_ofTimeline t
  calc (TimeMap.ofTimeline t).toVisual x
      = TimeMap.scanSource x (TimeMap.ofTimeline t).total (TimeMap.layOut 0 t.activeSpans) :=
        h.covers.toVisual_eq x
    _ = playedBy x t.activeSpans := by rw [h_total, h_scan]
    _ = playedBy x t.spans := playedBy_filter x t.spans

/-- Spans that are replaced by others delay what lies behind them. -/
theorem Sound.delays_of_place (h : t.Sound) (h' : t'.Sound) (h_spans : t.spans = a ++ (mid ++ b))
    (h_spans' : t'.spans = a ++ (mid' ++ b)) (h_mid : Tiles lo mid hi) (h_mid' : Tiles lo mid' hi) :
    (TimeMap.ofTimeline t).Delays (TimeMap.ofTimeline t') lo hi
      (sum (mid'.map Span.visualDuration) - sum (mid.map Span.visualDuration)) := by
  obtain ⟨h_before, h_behind⟩ := playedBy_place a b h_mid h_mid'
  constructor
  · intro x hx
    rw [h.toVisual_eq, h'.toVisual_eq, h_spans, h_spans', h_before x hx]
  · intro x hx
    rw [h.toVisual_eq, h'.toVisual_eq, h_spans, h_spans', h_behind x hx]

/-! ### Speeds -/

/-- A span of another speed lies where the old one did. -/
theorem tiles_singleton (h_lt : s.start < s.stop) : Tiles s.start [s] s.stop :=
  ⟨rfl, h_lt, rfl⟩

section Speed

variable {speed : ℚ}

/-- **A change of speed** delays what lies behind the span, by the difference of how long it is
shown. -/
theorem Sound.delays_setSpeed (h : t.Sound) (h' : t'.Sound) (h_spans : t.spans = a ++ s :: b)
    (h_spans' : t'.spans = a ++ { s with speed } :: b) (hs : s.isTrimmed = false) :
    (TimeMap.ofTimeline t).Delays (TimeMap.ofTimeline t') s.start s.stop
      (s.duration / speed - s.duration / s.speed) := by
  have h_lt := h.tiled.tiles.start_lt_stop s (by simp [h_spans])
  have h_delays := h.delays_of_place h' h_spans h_spans' (tiles_singleton h_lt)
    (tiles_singleton (s := { s with speed }) h_lt)
  have h_old : s.visualDuration = s.duration / s.speed := Span.visualDuration_of_shown hs
  have h_new : ({ s with speed } : Span ℚ).visualDuration = s.duration / speed :=
    Span.visualDuration_of_shown (s := { s with speed }) hs
  rw [List.map_singleton, List.map_singleton, Exact.sum_cons, Exact.sum_cons, Exact.sum_nil,
    add_zero, add_zero, h_old, h_new] at h_delays
  exact h_delays

/-- Inside the span, the clock runs at the new speed from where the span begins. -/
theorem Sound.toVisual_setSpeed (h : t.Sound) (h' : t'.Sound) (h_spans : t.spans = a ++ s :: b)
    (h_spans' : t'.spans = a ++ { s with speed } :: b) (hs : s.isTrimmed = false) {x : ℚ}
    (h_start : s.start ≤ x) (h_stop : x ≤ s.stop) :
    (TimeMap.ofTimeline t').toVisual x
      = (TimeMap.ofTimeline t).toVisual s.start + (x - s.start) / speed := by
  have h_tiles := h.tiled.tiles
  rw [h_spans, tiles_append] at h_tiles
  obtain ⟨_, h_a, rfl, h_lt, h_b⟩ := h_tiles
  -- the spans in front are over, those behind have not begun
  have h_front : playedBy x a = playedBy s.start a := by
    rw [h_a.playedBy_of_ge h_start, h_a.playedBy_of_ge le_rfl]
  have h_rear : playedBy x b = 0 ∧ playedBy s.start b = 0 :=
    ⟨h_b.playedBy_of_le h_stop, h_b.playedBy_of_le h_lt.le⟩
  have h_here : ({ s with speed } : Span ℚ).playedBy x = (x - s.start) / speed :=
    Span.playedBy_of_mem (s := { s with speed }) hs h_start h_stop
  rw [h.toVisual_eq, h'.toVisual_eq, h_spans, h_spans', playedBy_append, playedBy_append,
    playedBy_cons, playedBy_cons, h_front, h_rear.1, h_rear.2, h_here,
    Span.playedBy_of_le le_rfl, add_zero, add_zero, add_zero]

/-- A trimmed span has no say: the map stays the same. -/
theorem ofTimeline_setSpeed (h_spans : t.spans = a ++ s :: b)
    (h_spans' : t'.spans = a ++ { s with speed } :: b) (hs : s.isTrimmed = true) :
    TimeMap.ofTimeline t' = TimeMap.ofTimeline t := by
  have h_active : t'.activeSpans = t.activeSpans := by
    rw [activeSpans, activeSpans, h_spans, h_spans', List.filter_append, List.filter_append,
      List.filter_cons_of_neg (by simp [hs]), List.filter_cons_of_neg (by simp [hs])]
  rw [TimeMap.ofTimeline, TimeMap.ofTimeline, h_active]

end Speed

/-! ### Joins -/

/-- **A join** delays what lies behind the two spans, by the difference between how long they are
shown as one and how long they were shown one after the other. -/
theorem Sound.delays_join (h : t.Sound) (h' : t'.Sound) (policy : MergePolicy)
    (h_spans : t.spans = a ++ l :: r :: b) (h_spans' : t'.spans = a ++ l.join policy r :: b)
    (hl : l.isTrimmed = false) (hr : r.isTrimmed = false) :
    (TimeMap.ofTimeline t).Delays (TimeMap.ofTimeline t') l.start r.stop
      ((l.duration + r.duration) / (l.join policy r).speed
        - l.duration / l.speed - r.duration / r.speed) := by
  have h_tiles := h.tiled.tiles
  rw [h_spans, tiles_append] at h_tiles
  obtain ⟨_, -, rfl, h_lt, h_meet, h_lt', -⟩ := h_tiles
  have h_mid : Tiles l.start [l, r] r.stop := ⟨rfl, h_lt, h_meet, h_lt', rfl⟩
  have h_joined : Tiles l.start [l.join policy r] r.stop :=
    ⟨rfl, h_lt.trans (h_meet ▸ h_lt'), rfl⟩
  have h_apart : t.spans = a ++ ([l, r] ++ b) := h_spans
  have h_delays := h.delays_of_place h' h_apart h_spans' h_mid h_joined
  -- the two spans meet, so the one that they become is as long as both
  have h_one : (l.join policy r).visualDuration
      = (l.duration + r.duration) / (l.join policy r).speed := by
    have h_length : r.stop - l.start = l.duration + r.duration := by
      rw [Span.duration, Span.duration, h_meet]
      ring
    rw [← h_length]
    exact Span.visualDuration_of_shown (s := l.join policy r) hl
  have h_left : l.visualDuration = l.duration / l.speed := Span.visualDuration_of_shown hl
  have h_right : r.visualDuration = r.duration / r.speed := Span.visualDuration_of_shown hr
  rw [List.map_singleton, List.map_cons, List.map_singleton, Exact.sum_cons, Exact.sum_cons,
    Exact.sum_cons, Exact.sum_nil, add_zero, add_zero, h_one, h_left, h_right, ← sub_sub] at h_delays
  exact h_delays

/-! ### Reachable timelines -/

/-- **Changes of speed and joins are local.** In a reachable timeline, a change of speed leaves the
clock alone up to the span, lets it run at the new speed inside, and delays all that lies behind by
the difference of how long the span is shown. Of a trimmed span it leaves the whole map alone. A join
leaves the clock alone up to the first of the two spans and delays all that lies behind the second
one; the speed of the joined span is the one that the policy keeps. -/
theorem retiming_local {t : Timeline ℚ} (h : t.Reachable) (h_epsilon : 0 < t.epsilon) :
    (∀ i speed s, t.spans[i]? = some s → (t.setSpeed i speed).accepted = true →
        let m := TimeMap.ofTimeline t
        let m' := TimeMap.ofTimeline (t.setSpeed i speed).state
        (s.isTrimmed = true → m' = m) ∧
          (s.isTrimmed = false →
            m.Delays m' s.start s.stop (s.duration / speed - s.duration / s.speed) ∧
              ∀ x, s.start ≤ x → x ≤ s.stop →
                m'.toVisual x = m.toVisual s.start + (x - s.start) / speed)) ∧
      ∀ time, (t.removeBoundary time).accepted = true →
        ∃ a l r b speed, t.spans = a ++ l :: r :: b ∧
          (t.removeBoundary time).state.spans = a ++ ⟨l.start, r.stop, speed, false⟩ :: b ∧
          (t.mergePolicy = .keepLeft → speed = l.speed) ∧
          (t.mergePolicy = .keepRight → speed = r.speed) ∧
          (TimeMap.ofTimeline t).Delays (TimeMap.ofTimeline (t.removeBoundary time).state)
            l.start r.stop
            ((l.duration + r.duration) / speed - l.duration / l.speed - r.duration / r.speed) := by
  have h_sound := h.sound h_epsilon
  constructor
  · intro i speed s h_get h_accepted m m'
    have h_sound' := h_sound.setSpeed i speed
    rcases t.setSpeed_cases i speed with h_eq | ⟨a, s', b, h_spans, rfl, -, -, h_eq⟩
    · rw [h_eq] at h_accepted
      exact absurd h_accepted (by simp)
    · -- the edit names a span by its place, and it is the span of the claim
      obtain rfl : s' = s := by simpa [h_spans] using h_get
      -- one span has another speed; if it is trimmed, no clock shows it
      have h_spans' : (t.setSpeed a.length speed).state.spans = a ++ { s' with speed } :: b := by
        rw [h_eq, Outcome.state_accept]
      refine ⟨ofTimeline_setSpeed h_spans h_spans', fun hs => ⟨?_, ?_⟩⟩
      · exact h_sound.delays_setSpeed h_sound' h_spans h_spans' hs
      · exact fun x => h_sound.toVisual_setSpeed h_sound' h_spans h_spans' hs
  · intro time h_accepted
    -- a join: the two spans are shown, as they are refused otherwise
    have h_sound' := h_sound.removeBoundary time
    rcases t.removeBoundary_cases time with h_eq | ⟨a, l, r, b, h_spans, hl, hr, -, h_eq⟩
    · rw [h_eq] at h_accepted
      exact absurd h_accepted (by simp)
    · have h_spans' : (t.removeBoundary time).state.spans = a ++ l.join t.mergePolicy r :: b := by
        rw [h_eq, Outcome.state_accept]
      -- the policy decides which of the two speeds is kept
      refine ⟨a, l, r, b, (l.join t.mergePolicy r).speed, h_spans, ?_, ?_, ?_, ?_⟩
      · rw [h_spans', ← hl]
        rfl
      · intro h_policy
        rw [h_policy, Span.join]
      · intro h_policy
        rw [h_policy, Span.join]
      · exact h_sound.delays_join h_sound' t.mergePolicy h_spans h_spans' hl hr

/-- Ten seconds cut at `2`, `4` and `7`, with the beginning trimmed away and the second span at double
speed. Slowed down to half speed, that span delays what follows by three seconds; joined with the
third one, whose speed is kept, by one. -/
theorem retiming_local_of_trimmed :
    ∃ t : Timeline ℚ, t.Reachable ∧ 0 < t.epsilon ∧
      (t.setSpeed 1 (1 / 2)).accepted = true ∧
      (TimeMap.ofTimeline (t.setSpeed 1 (1 / 2)).state).toVisual 8
        = (TimeMap.ofTimeline t).toVisual 8 + 3 ∧
      (TimeMap.ofTimeline (t.setSpeed 1 (1 / 2)).state).toVisual 3
        = (TimeMap.ofTimeline t).toVisual 2 + 2 ∧
      (TimeMap.ofTimeline (t.setSpeed 0 5).state) = TimeMap.ofTimeline t ∧
      (t.removeBoundary 4).accepted = true ∧
      (TimeMap.ofTimeline (t.removeBoundary 4).state).toVisual 8
        = (TimeMap.ofTimeline t).toVisual 8 + 1 := by
  obtain ⟨t, h_t⟩ : ∃ t : Timeline ℚ, run ⟨10, [⟨0, 10, 1.0, false⟩], [], 1 / 100, .keepRight⟩
      [.edit (.addBoundary 2), .edit (.addBoundary 4), .edit (.addBoundary 7),
        .edit (.setSpeed 1 2), .edit (.trim 0)] = t := ⟨_, rfl⟩
  have h : t.Reachable := ⟨10, 1 / 100, .keepRight, _, _, rfl, h_t⟩
  have h_facts : 0 < t.epsilon ∧ (t.setSpeed 1 (1 / 2)).accepted = true ∧
      (t.setSpeed 0 5).accepted = true ∧ (t.removeBoundary 4).accepted = true ∧
      t.mergePolicy = .keepRight ∧ t.spans = [⟨0, 2, 1, true⟩, ⟨2, 4, 2, false⟩, ⟨4, 7, 1, false⟩,
        ⟨7, 10, 1, false⟩] ∧
      (t.removeBoundary 4).state.spans = [⟨0, 2, 1, true⟩, ⟨2, 7, 1, false⟩, ⟨7, 10, 1, false⟩] := by
    rw [← h_t]
    decide +kernel
  obtain ⟨h_epsilon, h_slow, h_fast, h_join, h_policy, h_spans, h_spans'⟩ := h_facts
  -- an active span slowed down, a trimmed one with another speed, and two active ones joined
  obtain ⟨h_speed, h_remove⟩ := retiming_local h h_epsilon
  obtain ⟨h_delays, h_inside⟩ :=
    (h_speed 1 (1 / 2) ⟨2, 4, 2, false⟩ (by simp [h_spans]) h_slow).2 rfl
  have h_same := (h_speed 0 5 ⟨0, 2, 1, true⟩ (by simp [h_spans]) h_fast).1 rfl
  obtain ⟨a, l, r, b, speed, h_place, h_place', -, h_kept, h_joined⟩ := h_remove 4 h_join
  -- only the second and the third span can have become the one that is now second
  obtain ⟨rfl, rfl⟩ : l = ⟨2, 4, 2, false⟩ ∧ r = ⟨4, 7, 1, false⟩ := by
    simp only [h_spans] at h_place
    simp only [h_spans'] at h_place'
    rcases a with _ | ⟨_, _ | ⟨_, _⟩⟩ <;> grind
  obtain rfl : speed = 1 := h_kept h_policy
  refine ⟨t, h, h_epsilon, h_slow, ?_, ?_, h_same, h_join, ?_⟩
  · rw [h_delays.behind 8 (by norm_num), Span.duration]
    norm_num
  · rw [h_inside 3 (by norm_num) (by norm_num)]
    norm_num
  · rw [h_joined.behind 8 (by norm_num), Span.duration, Span.duration]
    norm_num

end Timeline

end ClipEdit
