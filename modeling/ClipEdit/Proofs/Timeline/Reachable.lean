import ClipEdit.Proofs.Timeline.TrimLog
import Mathlib.Data.List.Chain

/-!
# Timelines under edits

A timeline is made by `create` and then changes by commands only: the edits, and the choice of
another merge policy. `Reachable` timelines are those that some list of commands leads to, whatever
the arguments of the commands are and whether they were carried out or refused.

`Sound` is the invariant of all of them. It joins the three views of the modules below this one:
the spans tile the clip and the boundaries keep their distance (`Tiled`), every speed is positive
and finite, and the log of trims agrees with what is trimmed (`Parted`):

* `Sound.create` — a new timeline is sound;
* `Sound.step`, `Sound.run` — a command keeps a timeline sound, hence so do all lists of commands;
* `Reachable.sound` — reachable timelines are sound.

`WellFormed` says what soundness means to a reader of `Timeline.segments`, and
`run_wellFormed` is the contract of the editor at binary64 numbers.
-/

namespace ClipEdit

open Scalar Gauge

variable {α : Type} [Scalar α]

namespace Timeline

/-! ### Commands -/

/-- Everything that changes a timeline. -/
inductive Command (α : Type) where
  | edit (edit : Edit α)
  | setMergePolicy (policy : MergePolicy)

/-- The timeline after a command, carried out or refused. -/
def step (t : Timeline α) : Command α → Timeline α
  | .edit edit => (t.apply edit).state
  | .setMergePolicy policy => t.setMergePolicy policy

/-- The timeline after a list of commands. -/
def run (t : Timeline α) (commands : List (Command α)) : Timeline α :=
  commands.foldl step t

/-- **A reachable timeline**: one that some commands lead to from a new timeline. -/
def Reachable (t : Timeline α) : Prop :=
  ∃ duration epsilon policy t₀ commands,
    create duration epsilon policy = .ok t₀ ∧ run t₀ commands = t

variable {t t' : Timeline α} {a b : List (Span α)} {s : Span α}

/-- A new timeline is one span at normal speed. -/
theorem create_eq_ok {duration epsilon : α} {policy : MergePolicy}
    (h : create duration epsilon policy = .ok t) :
    isFinite duration = true ∧ ¬ duration ≤ 0 ∧
      t = ⟨duration, [⟨0, duration, 1.0, false⟩], [], epsilon, policy⟩ := by
  unfold create at h
  split at h
  · exact absurd h (by simp)
  · next h_not =>
    simp only [Bool.or_eq_true, Bool.not_eq_true', decide_eq_true_eq, not_or,
      Bool.not_eq_false] at h_not
    exact ⟨h_not.1, h_not.2, (Except.ok.inj h).symm⟩

/-! ### What no command changes -/

omit [Scalar α] in
/-- Marking spans changes nothing that does not depend on the flag. -/
theorem map_mark {β : Type} {f : Span α → β} (hf : ∀ s v, f { s with isTrimmed := v } = f s)
    (t : Timeline α) (index : Nat) (v : Bool) : (t.mark index v).map f = t.spans.map f := by
  apply List.ext_getElem?
  intro i
  rw [mark, List.getElem?_map, List.getElem?_map, List.getElem?_modify]
  cases t.spans[i]? with
  | none => rfl
  | some s => by_cases h_at : index = i <;> simp [h_at, hf]

theorem trim_spans (t : Timeline α) (index : Nat) :
    (t.trim index).state.spans = t.spans ∨
      ∃ i v, (t.trim index).state.spans = t.mark i v := by
  unfold trim
  split
  · exact Or.inl rfl
  · split
    · split
      · exact Or.inr ⟨_, _, rfl⟩
      · exact Or.inl rfl
    · split
      · exact Or.inr ⟨_, _, rfl⟩
      · exact Or.inl rfl

theorem detrim_spans (t : Timeline α) (side : TrimSide) :
    (t.detrim side).state.spans = t.spans ∨
      ∃ i v, (t.detrim side).state.spans = t.mark i v := by
  unfold detrim
  split
  · exact Or.inl rfl
  · dsimp only
    split
    · exact Or.inl rfl
    · exact Or.inr ⟨_, _, rfl⟩

/-- The length of the clip and the distance between boundaries are settled for good. -/
theorem apply_settings (t : Timeline α) (e : Edit α) :
    (t.apply e).state.duration = t.duration ∧ (t.apply e).state.epsilon = t.epsilon := by
  cases e with
  | addBoundary time =>
    rcases t.addBoundary_cases time with h | ⟨_, _, _, -, -, -, -, h⟩ <;> simp [apply, h]
  | removeBoundary time =>
    rcases t.removeBoundary_cases time with h | ⟨_, _, _, _, -, -, -, -, h⟩ <;> simp [apply, h]
  | setSpeed index speed =>
    rcases t.setSpeed_cases index speed with h | ⟨_, _, _, -, -, -, -, h⟩ <;> simp [apply, h]
  | trim index =>
    rcases t.trim_cases index with h | ⟨_, _, _, -, -, -, -, h⟩ | ⟨_, _, _, -, -, -, -, h⟩ <;>
      simp [apply, h]
  | detrim side =>
    -- a detrim has two ways to be refused
    rw [apply, detrim]
    split
    · exact ⟨rfl, rfl⟩
    · dsimp only
      split <;> exact ⟨rfl, rfl⟩

theorem step_settings (t : Timeline α) (c : Command α) :
    (t.step c).duration = t.duration ∧ (t.step c).epsilon = t.epsilon := by
  cases c with
  | edit e => exact t.apply_settings e
  | setMergePolicy policy => exact ⟨rfl, rfl⟩

theorem run_settings (t : Timeline α) (commands : List (Command α)) :
    (t.run commands).duration = t.duration ∧ (t.run commands).epsilon = t.epsilon := by
  induction commands generalizing t with
  | nil => exact ⟨rfl, rfl⟩
  | cons c rest ih =>
    obtain ⟨h_duration, h_epsilon⟩ := ih (t.step c)
    obtain ⟨h_duration', h_epsilon'⟩ := t.step_settings c
    exact ⟨h_duration.trans h_duration', h_epsilon.trans h_epsilon'⟩

/-! ### The invariant -/

/-- **A sound timeline**: its spans tile the clip, its speeds make sense, and its log of trims
agrees with what is trimmed. -/
structure Sound (t : Timeline α) : Prop where
  tiled : t.Tiled
  speeds : ∀ s ∈ t.spans, isFinite s.speed = true ∧ 0 < s.speed
  parted : ∃ lead shown trail, t.Parted lead shown trail

variable [Gauge α]

namespace Sound

/-- A new timeline is sound. -/
theorem create {duration epsilon : α} {policy : MergePolicy} (h_epsilon : 0 < epsilon)
    (h : create duration epsilon policy = .ok t) : t.Sound := by
  obtain ⟨h_fin, h_not, rfl⟩ := create_eq_ok h
  have h_pos := (Gauge.not_le (isNumber_of_isFinite h_fin) isNumber_zero).mp h_not
  refine ⟨⟨h_fin, h_pos, h_epsilon, ⟨rfl, h_pos, rfl⟩, ?_, ?_⟩, ?_, ?_⟩
  · intro b hb
    exact absurd hb (by simp [boundaries])
  · exact .nil
  · intro s hs
    obtain rfl := List.mem_singleton.mp hs
    exact ⟨isFinite_one, zero_lt_one⟩
  · exact ⟨[], [⟨0, duration, 1.0, false⟩], [], rfl, by simp, by simp, by simp, by simp, rfl, rfl⟩

omit [Gauge α] in
/-- No edit but `setSpeed` makes a speed up. -/
theorem speeds_of_old (h : t.Sound) {spans : List (Span α)}
    (h_old : ∀ x ∈ spans, ∃ s ∈ t.spans, x.speed = s.speed) :
    ∀ x ∈ spans, isFinite x.speed = true ∧ 0 < x.speed := by
  intro x hx
  obtain ⟨s, hs, h_eq⟩ := h_old x hx
  rw [h_eq]
  exact h.speeds s hs

/-- Cutting a span: both halves keep its speed. -/
theorem addBoundary (h : t.Sound) (time : α) : (t.addBoundary time).state.Sound := by
  obtain ⟨lead, shown, trail, h_parted⟩ := h.parted
  rcases t.addBoundary_cases time with h_eq | ⟨a, s, b, h_spans, hs, h_free, h_at, h_eq⟩
  · rw [h_eq]
    exact h
  · rw [h_eq]
    -- the cut is in the part that is shown, and both halves have the speed of the whole
    obtain ⟨shown', h_parted'⟩ := h_parted.cut h_spans hs time
    refine ⟨h.tiled.cut h_spans h_free h_at, h.speeds_of_old ?_, lead, shown', trail, h_parted'⟩
    intro x hx
    rw [h_spans]
    simp only [Span.cut, Outcome.state_accept, List.mem_append, List.mem_cons, List.not_mem_nil,
      or_false] at hx ⊢
    rcases hx with (hx | rfl | rfl) | hx
    · exact ⟨x, Or.inl hx, rfl⟩
    · exact ⟨s, Or.inr (Or.inl rfl), rfl⟩
    · exact ⟨s, Or.inr (Or.inl rfl), rfl⟩
    · exact ⟨x, Or.inr (Or.inr hx), rfl⟩

/-- Joining two spans: the policy takes the speed of one of the two. -/
theorem removeBoundary (h : t.Sound) (time : α) : (t.removeBoundary time).state.Sound := by
  obtain ⟨lead, shown, trail, h_parted⟩ := h.parted
  rcases t.removeBoundary_cases time with h_eq | ⟨a, l, r, b, h_spans, hl, hr, -, h_eq⟩
  · rw [h_eq]
    exact h
  · rw [h_eq]
    obtain ⟨shown', h_parted'⟩ := h_parted.join h_spans hl hr
    refine ⟨h.tiled.join h_spans, h.speeds_of_old ?_, lead, shown', trail, h_parted'⟩
    intro x hx
    rw [h_spans]
    simp only [Outcome.state_accept, List.mem_append, List.mem_cons] at hx ⊢
    rcases hx with hx | rfl | hx
    · exact ⟨x, Or.inl hx, rfl⟩
    · -- a joined span has no speed of its own
      cases t.mergePolicy
      · exact ⟨l, Or.inr (Or.inl rfl), by rw [Span.join]⟩
      · exact ⟨r, Or.inr (Or.inr (Or.inl rfl)), by rw [Span.join]⟩
    · exact ⟨x, Or.inr (Or.inr (Or.inr hx)), rfl⟩

/-- Changing a speed: the new one was checked. -/
theorem setSpeed (h : t.Sound) (index : Nat) (speed : α) :
    (t.setSpeed index speed).state.Sound := by
  obtain ⟨lead, shown, trail, h_parted⟩ := h.parted
  rcases t.setSpeed_cases index speed with h_eq | ⟨a, s, b, h_spans, -, h_fin, h_not, h_eq⟩
  · rw [h_eq]
    exact h
  · rw [h_eq]
    -- neither extents nor flags are changed
    refine ⟨h.tiled.of_extents rfl rfl ?_, ?_, h_parted.of_flags rfl ?_⟩
    · simp [h_spans, Span.extent]
    · intro x hx
      simp only [Outcome.state_accept, List.mem_append, List.mem_cons] at hx
      rcases hx with hx | rfl | hx
      · exact h.speeds x (by simp [h_spans, hx])
      · exact ⟨h_fin, (Gauge.not_le (isNumber_of_isFinite h_fin) isNumber_zero).mp h_not⟩
      · exact h.speeds x (by simp [h_spans, hx])
    · simp [h_spans, Span.flagged]

omit [Gauge α] in
/-- Where at most flags change, all that is left to show is that the log follows. -/
theorem of_mark (h : t.Sound) (h_settings : t'.duration = t.duration ∧ t'.epsilon = t.epsilon)
    (h_spans : t'.spans = t.spans ∨ ∃ i v, t'.spans = t.mark i v)
    (h_parted : ∃ lead shown trail, t'.Parted lead shown trail) : t'.Sound := by
  -- extents and speeds do not depend on the flag
  have h_map {β : Type} {f : Span α → β} (hf : ∀ s v, f { s with isTrimmed := v } = f s) :
      t'.spans.map f = t.spans.map f := by
    rcases h_spans with h_eq | ⟨i, v, h_eq⟩
    · rw [h_eq]
    · rw [h_eq]
      exact map_mark hf t i v
  refine ⟨h.tiled.of_extents h_settings.1 h_settings.2 (h_map fun _ _ => rfl),
    h.speeds_of_old ?_, h_parted⟩
  intro x hx
  have h_mem : x.speed ∈ t.spans.map Span.speed := by
    rw [← h_map fun _ _ => rfl]
    exact List.mem_map_of_mem hx
  obtain ⟨s, hs, h_eq⟩ := List.mem_map.mp h_mem
  exact ⟨s, hs, h_eq.symm⟩

/-- Trimming a span, or bringing it back. -/
theorem trim (h : t.Sound) (index : Nat) : (t.trim index).state.Sound := by
  obtain ⟨lead, shown, trail, h_parted⟩ := h.parted
  exact h.of_mark (t.apply_settings (.trim index)) (t.trim_spans index)
    (h_parted.trim h.tiled index)

/-- Taking the latest trim of a side back. -/
theorem detrim (h : t.Sound) (side : TrimSide) : (t.detrim side).state.Sound := by
  obtain ⟨lead, shown, trail, h_parted⟩ := h.parted
  exact h.of_mark (t.apply_settings (.detrim side)) (t.detrim_spans side)
    (h_parted.detrim h.tiled side)

/-- **A command keeps a timeline sound.** -/
theorem step (h : t.Sound) (c : Command α) : (t.step c).Sound := by
  rcases c with ⟨time | time | ⟨index, speed⟩ | index | side⟩ | policy
  · exact h.addBoundary time
  · exact h.removeBoundary time
  · exact h.setSpeed index speed
  · exact h.trim index
  · exact h.detrim side
  · obtain ⟨lead, shown, trail, h_parted⟩ := h.parted
    exact ⟨h.tiled.of_extents rfl rfl rfl, h.speeds, h_parted.of_flags rfl rfl⟩

/-- **So does every list of commands.** -/
theorem run (h : t.Sound) (commands : List (Command α)) : (t.run commands).Sound := by
  induction commands generalizing t with
  | nil => exact h
  | cons c rest ih => exact ih (h.step c)

end Sound

/-- **Reachable timelines are sound.** -/
theorem Reachable.sound (h : t.Reachable) (h_epsilon : 0 < t.epsilon) : t.Sound := by
  obtain ⟨duration, epsilon, policy, t₀, commands, h_create, rfl⟩ := h
  -- the `epsilon` of the timeline is the one that it was made with
  rw [(t₀.run_settings commands).2] at h_epsilon
  have h_epsilon' : t₀.epsilon = epsilon := by rw [(create_eq_ok h_create).2.2]
  rw [h_epsilon'] at h_epsilon
  exact (Sound.create h_epsilon h_create).run commands

/-! ### What a reader of the segments can rely on -/

/-- **A well-formed timeline**, in terms of its segments: they cover the clip from `0` to its
duration without gaps, know their places, have speeds that make sense, and those that are shown are
neighbours. Boundaries keep their distance from the ends of the clip and from each other. -/
structure WellFormed (t : Timeline α) : Prop where
  segments_ne_nil : t.segments ≠ []
  first_start : t.segments.head?.map (fun s => s.start) = some 0
  last_stop : t.segments.getLast?.map (fun s => s.stop) = some t.duration
  meets : t.segments.IsChain fun s s' => s.stop = s'.start
  start_lt_stop : ∀ s ∈ t.segments, s.start < s.stop
  places : ∀ i s, t.segments[i]? = some s →
    s.index = i ∧ s.isFirst = decide (i = 0) ∧ s.isLast = decide (i + 1 = t.segments.length)
  speeds : ∀ s ∈ t.segments, isFinite s.speed = true ∧ 0 < s.speed
  /-- The segments that are shown are one run of neighbours. -/
  shown : ∃ lead shown trail, t.segments = lead ++ (shown ++ trail) ∧ shown ≠ [] ∧
    (∀ s ∈ lead, s.isTrimmed = true) ∧ (∀ s ∈ shown, s.isTrimmed = false) ∧
    ∀ s ∈ trail, s.isTrimmed = true
  inside : ∀ b ∈ t.boundaries, t.epsilon < b ∧ b < t.duration - t.epsilon
  /-- The distance does not depend on which of the two boundaries comes first. -/
  apart : t.boundaries.Pairwise fun b b' =>
    t.epsilon ≤ magnitude (b - b') ∧ t.epsilon ≤ magnitude (b' - b)

omit [Scalar α] [Gauge α] in
/-- Without their places, the segments are the spans. -/
theorem map_toSpan_segments (t : Timeline α) : t.segments.map Segment.toSpan = t.spans := by
  apply List.ext_getElem?
  intro i
  rw [segments, List.getElem?_map, List.getElem?_mapIdx, Option.map_map]
  exact Option.map_id'

/-- **Soundness is well-formedness** to a reader of the segments. -/
theorem Sound.wellFormed (h : t.Sound) : t.WellFormed := by
  have h_map := t.map_toSpan_segments
  have h_span : ∀ s ∈ t.segments, s.toSpan ∈ t.spans := fun s hs => by
    rw [← h_map]
    exact List.mem_map_of_mem hs
  obtain ⟨lead, shown, trail, h_parted⟩ := h.parted
  have h_ne : t.spans ≠ [] := fun h_nil => h_parted.shown_ne_nil (by
    have h_eq := h_parted.spans_eq
    rw [h_nil] at h_eq
    exact (List.append_eq_nil_iff.mp (List.append_eq_nil_iff.mp h_eq.symm).2).1)
  -- facts about the spans are carried over to the segments, which only add their places
  have h_first := h.tiled.tiles.head?_start h_ne
  have h_last := h.tiled.tiles.getLast?_stop h_ne
  have h_chain := h.tiled.tiles.isChain
  rw [← h_map] at h_ne
  rw [← h_map, List.head?_map, Option.map_map] at h_first
  rw [← h_map, List.getLast?_map, Option.map_map] at h_last
  rw [← h_map, List.isChain_map] at h_chain
  refine ⟨fun h_nil => h_ne (by rw [h_nil]; rfl), h_first, h_last, h_chain,
    fun s hs => h.tiled.tiles.start_lt_stop _ (h_span s hs), ?_,
    fun s hs => h.speeds _ (h_span s hs), ?_, fun b hb => (h.tiled.inside b hb).2, ?_⟩
  · intro i s hs
    rw [segments, List.getElem?_mapIdx, Option.map_eq_some_iff] at hs
    obtain ⟨x, -, rfl⟩ := hs
    refine ⟨rfl, ?_, ?_⟩
    · simp [numbered, beq_eq_decide]
    · simp [numbered, segments, beq_eq_decide]
  · -- the three parts of the spans are three parts of the segments
    have h_eq := h_parted.spans_eq
    rw [← h_map, List.map_eq_append_iff] at h_eq
    obtain ⟨lead', rest, h_segments, rfl, h_rest⟩ := h_eq
    obtain ⟨shown', trail', rfl, rfl, rfl⟩ := List.map_eq_append_iff.mp h_rest
    refine ⟨lead', shown', trail', h_segments, ?_, ?_, ?_, ?_⟩
    · rintro rfl
      exact h_parted.shown_ne_nil rfl
    · exact fun s hs => h_parted.isTrimmed_lead _ (List.mem_map_of_mem hs)
    · exact fun s hs => h_parted.isTrimmed_shown _ (List.mem_map_of_mem hs)
    · exact fun s hs => h_parted.isTrimmed_trail _ (List.mem_map_of_mem hs)
  · -- subtraction rounds alike in both directions
    refine h.tiled.apart.imp_of_mem fun hb hb' h_far => ⟨h_far, ?_⟩
    rw [magnitude_sub_comm (h.tiled.inside _ hb').1 (h.tiled.inside _ hb).1]
    exact h_far

/-- **The contract of the editor.** Whatever is done to a new timeline, it stays well-formed, and
its duration and `epsilon` stay what they were. -/
theorem run_wellFormed {duration epsilon : Float} (policy : MergePolicy)
    (commands : List (Command Float)) (h_fin : isFinite duration = true) (h_pos : 0 < duration)
    (h_epsilon : 0 < epsilon) :
    ∃ t₀, create duration epsilon policy = .ok t₀ ∧ (t₀.run commands).WellFormed ∧
      (t₀.run commands).duration = duration ∧ (t₀.run commands).epsilon = epsilon := by
  have h_not : ¬ duration ≤ 0 :=
    (Gauge.not_le (isNumber_of_isFinite h_fin) isNumber_zero).mpr h_pos
  have h_create : create duration epsilon policy
      = .ok ⟨duration, [⟨0, duration, 1.0, false⟩], [], epsilon, policy⟩ := by
    rw [create, if_neg (by simp [h_fin, h_not])]
  obtain ⟨h_duration, h_eps⟩ := run_settings (α := Float)
    ⟨duration, [⟨0, duration, 1.0, false⟩], [], epsilon, policy⟩ commands
  have h_sound := (Sound.create h_epsilon h_create).run commands
  exact ⟨_, h_create, h_sound.wellFormed, h_duration, h_eps⟩

/-- Ten seconds cut at `4`, with the second part at twice the speed and the first one trimmed away;
then another merge policy, and the trim is taken back. -/
theorem run_wellFormed_ten_seconds :
    isFinite (10.0 : Float) = true ∧ (0 : Float) < 10.0 ∧ (0 : Float) < 0.01 ∧
      ∃ t₀, create (10.0 : Float) 0.01 .keepLeft = .ok t₀ ∧
        (∃ t, t₀.run [.edit (.addBoundary 4.0), .edit (.setSpeed 1 2.0), .edit (.trim 0)] = t ∧
          t.WellFormed ∧ t.spans = [⟨0, 4.0, 1.0, true⟩, ⟨4.0, 10.0, 2.0, false⟩] ∧
          t.trims = [⟨.start, 0⟩]) ∧
        ∃ t, t₀.run [.edit (.addBoundary 4.0), .edit (.setSpeed 1 2.0), .edit (.trim 0),
            .setMergePolicy .keepRight, .edit (.detrim .start)] = t ∧
          t.WellFormed ∧ t.spans = [⟨0, 4.0, 1.0, false⟩, ⟨4.0, 10.0, 2.0, false⟩] ∧
          t.trims = [] ∧ t.mergePolicy = .keepRight := by
  have h_fin : isFinite (10.0 : Float) = true := by decide
  have h_pos : (0 : Float) < 10.0 := by decide
  have h_epsilon : (0 : Float) < 0.01 := by decide
  obtain ⟨t₀, h_create, h_trimmed, -⟩ := run_wellFormed .keepLeft
    [.edit (.addBoundary 4.0), .edit (.setSpeed 1 2.0), .edit (.trim 0)] h_fin h_pos h_epsilon
  obtain ⟨t₁, h_create', h_wellFormed, -⟩ := run_wellFormed .keepLeft
    [.edit (.addBoundary 4.0), .edit (.setSpeed 1 2.0), .edit (.trim 0),
      .setMergePolicy .keepRight, .edit (.detrim .start)] h_fin h_pos h_epsilon
  -- both runs start from the one timeline that is made, which is known in full
  obtain rfl : t₀ = t₁ := Except.ok.inj (h_create.symm.trans h_create')
  obtain rfl : ⟨10.0, [⟨0, 10.0, 1.0, false⟩], [], 0.01, .keepLeft⟩ = t₀ :=
    Except.ok.inj (Eq.trans (by decide +kernel) h_create)
  exact ⟨h_fin, h_pos, h_epsilon, _, h_create, ⟨_, rfl, h_trimmed, by decide +kernel⟩,
    _, rfl, h_wellFormed, by decide +kernel⟩

end Timeline

end ClipEdit
