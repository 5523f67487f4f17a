import ClipEdit.Proofs.Timeline.Reachable

/-!
# Trims by history and by position

A user of the editor trims and restores by position and undoes by history, and must never see the
two disagree. For a reachable timeline they cannot: the log is determined by the flags.

* `trimmedAt` — what is trimmed at a side, read off the flags from the outside in, and `innermost`,
  the position of the last one;
* `Sound.logged_eq` — the log of a side, oldest trim first, is `trimmedAt`;
* `Sound.exists_innermost` — the innermost span of a side has the latest entry of that side;
* `Sound.detrim_eq` — taking a trim back shows the innermost span of that side, and only the log of
  that side gets shorter;
* `history_agrees` — the two of them for reachable timelines at binary64 numbers, together with the
  fact that every entry of the log finds its span.
-/

namespace ClipEdit

open Scalar Gauge

variable {α : Type}

namespace Timeline

/-- The spans that are trimmed at a side, from the outside in. -/
def trimmedAt (t : Timeline α) : TrimSide → List (Span α)
  | .start => t.spans.takeWhile Span.isTrimmed
  | .stop => t.spans.reverse.takeWhile Span.isTrimmed

/-- The position of the innermost span that is trimmed at a side. -/
def innermost (t : Timeline α) : TrimSide → Nat
  | .start => (t.trimmedAt .start).length - 1
  | .stop => t.spans.length - (t.trimmedAt .stop).length

variable {t : Timeline α} {lead shown trail : List (Span α)}

/-- Spans with a flag, up to the first one without it. -/
theorem takeWhile_isTrimmed {k k' : List (Span α)} (hk : ∀ s ∈ k, s.isTrimmed = true)
    (h_ne : k' ≠ []) (hk' : ∀ s ∈ k', s.isTrimmed = false) (l : List (Span α)) :
    (k ++ (k' ++ l)).takeWhile Span.isTrimmed = k := by
  obtain ⟨s, rest, rfl⟩ := List.exists_cons_of_ne_nil h_ne
  rw [List.takeWhile_append_of_pos hk, List.cons_append,
    List.takeWhile_cons_of_neg (by simp [hk' s]), List.append_nil]

namespace Parted

theorem trimmedAt_start (h : t.Parted lead shown trail) : t.trimmedAt .start = lead := by
  rw [trimmedAt, h.spans_eq]
  exact takeWhile_isTrimmed h.isTrimmed_lead h.shown_ne_nil h.isTrimmed_shown trail

theorem trimmedAt_stop (h : t.Parted lead shown trail) : t.trimmedAt .stop = trail.reverse := by
  -- read from the end, the trail is what comes before the spans that are shown
  have h_rev : t.spans.reverse = trail.reverse ++ (shown.reverse ++ lead.reverse) := by
    rw [h.spans_eq]
    simp
  rw [trimmedAt, h_rev]
  refine takeWhile_isTrimmed (fun s hs => h.isTrimmed_trail s (List.mem_reverse.mp hs)) ?_
    (fun s hs => h.isTrimmed_shown s (List.mem_reverse.mp hs)) lead.reverse
  simpa using h.shown_ne_nil

theorem innermost_start {s : Span α} (h : t.Parted (lead ++ [s]) shown trail) :
    t.innermost .start = lead.length := by
  simp [innermost, h.trimmedAt_start]

theorem innermost_stop {s : Span α} (h : t.Parted lead shown (s :: trail)) :
    t.innermost .stop = (lead ++ shown).length := by
  rw [innermost, h.trimmedAt_stop, h.spans_eq]
  simp only [List.length_append, List.length_reverse, List.length_cons]
  omega

theorem isInnermost_start {s : Span α} (h : t.Parted (lead ++ [s]) shown trail) :
    t.isInnermost lead.length = true := by
  rw [isInnermost, h.firstActive?_eq, h.lastActive?_eq]
  simp

theorem isInnermost_stop {s : Span α} (h : t.Parted lead shown (s :: trail)) :
    t.isInnermost (lead ++ shown).length = true := by
  have h_pos := List.length_pos_of_ne_nil h.shown_ne_nil
  rw [isInnermost, h.firstActive?_eq, h.lastActive?_eq]
  simp only [List.length_append, Bool.or_eq_true, beq_iff_eq]
  omega

end Parted

variable [Scalar α]

namespace Sound

/-- **The log is determined by the flags.** -/
theorem logged_eq (h : t.Sound) (side : TrimSide) :
    logged side t.trims = (t.trimmedAt side).map Span.start := by
  obtain ⟨lead, shown, trail, h_parted⟩ := h.parted
  cases side with
  | start => rw [h_parted.logged_start, h_parted.trimmedAt_start]
  | stop => rw [h_parted.logged_stop, h_parted.trimmedAt_stop, List.map_reverse]

/-- With nothing trimmed at a side there is nothing to take back. -/
theorem detrim_eq_refuse (h : t.Sound) {side : TrimSide} (h_nil : t.trimmedAt side = []) :
    t.detrim side = .refuse t := by
  refine Timeline.detrim_eq_refuse (logged_eq_nil_iff.mp ?_)
  rw [h.logged_eq, h_nil, List.map_nil]

/-- **The innermost span of a side**, with its place among the spans and its entry in the log. The
entry is the latest one of its side. -/
theorem exists_innermost (h : t.Sound) {side : TrimSide} (h_ne : t.trimmedAt side ≠ []) :
    ∃ a s b u v, t.spans = a ++ s :: b ∧ t.innermost side = a.length ∧ s.isTrimmed = true ∧
      t.isInnermost a.length = true ∧ (t.trimmedAt side).getLast? = some s ∧
      t.trims = u ++ ⟨side, s.start⟩ :: v ∧ ∀ x ∈ v, (x.side == side) = false := by
  obtain ⟨rest, s, h_at⟩ := (List.eq_nil_or_concat' (t.trimmedAt side)).resolve_left h_ne
  have h_logged := h.logged_eq side
  rw [h_at, List.map_append] at h_logged
  obtain ⟨u, v, h_log, -, h_v⟩ := exists_latest h_logged
  have h_last : (t.trimmedAt side).getLast? = some s := by rw [h_at, List.getLast?_concat]
  -- the two sides differ only in where the place is
  obtain ⟨lead, shown, trail, h_parted⟩ := h.parted
  have h_spans := h_parted.spans_eq
  cases side with
  | start =>
    rw [h_parted.trimmedAt_start] at h_at
    subst h_at
    rw [List.append_assoc] at h_spans
    exact ⟨rest, s, shown ++ trail, u, v, h_spans, h_parted.innermost_start,
      h_parted.isTrimmed_lead s (by simp), h_parted.isInnermost_start, h_last, h_log, h_v⟩
  | stop =>
    rw [h_parted.trimmedAt_stop, List.reverse_eq_append_iff] at h_at
    subst h_at
    rw [← List.append_assoc] at h_spans
    exact ⟨lead ++ shown, s, rest.reverse, u, v, h_spans, h_parted.innermost_stop,
      h_parted.isTrimmed_trail s List.mem_cons_self, h_parted.isInnermost_stop, h_last, h_log, h_v⟩

variable [Gauge α]

/-- **Taking a trim back shows the innermost span of its side.** The log of that side loses its
latest entry, the other one stays. -/
theorem detrim_eq (h : t.Sound) {side : TrimSide} (h_ne : t.trimmedAt side ≠ []) :
    t.spans[t.innermost side]? = (t.trimmedAt side).getLast? ∧
      ∃ trims, t.detrim side = .accept { t with
          spans := t.mark (t.innermost side) false
          trims } ∧
        logged side trims = (logged side t.trims).dropLast ∧
        ∀ other, other ≠ side → logged other trims = logged other t.trims := by
  -- the innermost span of the side, and the entry that its trim has left in the log
  obtain ⟨a, s, b, u, v, h_spans, h_at, -, -, h_last, h_log, h_v⟩ := h.exists_innermost h_ne
  have h_without := logged_without (u := u) (e := ⟨side, s.start⟩) h_v
  rw [← h_log] at h_without
  rw [h_at, h_last, mark_place h_spans]
  refine ⟨by simp [h_spans], u ++ v, h.tiled.detrim_eq_accept h_spans h_log h_v, ?_, ?_⟩
  · rw [h_without side, if_pos rfl, List.dropLast_concat]
  · intro other h_other
    rw [h_without other, if_neg h_other]

/-- Every entry of the log finds a span. -/
theorem exists_findIdx? (h : t.Sound) {e : TrimEntry α} (he : e ∈ t.trims) :
    ∃ i, (t.spans.findIdx? fun s => s.start == e.segmentStart) = some i := by
  have h_mem := mem_logged he
  rw [h.logged_eq, List.mem_map] at h_mem
  obtain ⟨s, hs, h_eq⟩ := h_mem
  -- what is trimmed at a side is among the spans
  have h_span : s ∈ t.spans := by
    cases h_side : e.side <;> rw [h_side] at hs
    · exact (List.takeWhile_sublist _).subset hs
    · exact List.mem_reverse.mp ((List.takeWhile_sublist _).subset hs)
  rw [← Option.isSome_iff_exists, List.findIdx?_isSome, List.any_eq_true]
  exact ⟨s, h_span, by rw [← h_eq]; exact h.tiled.start_beq_self h_span⟩

end Sound

/-- **History and position agree.** In a reachable timeline the log of either side lists the spans
trimmed at that side from the outside in, and holds nothing else. So a trim can be taken back
exactly when something is trimmed at that side; it is the innermost span that is shown again, and
every entry of the log finds its span. -/
theorem history_agrees {t : Timeline Float} (h : t.Reachable) (h_epsilon : 0 < t.epsilon) :
    (∀ side, logged side t.trims = (t.trimmedAt side).map Span.start) ∧
      t.trims.length = (t.trimmedAt .start).length + (t.trimmedAt .stop).length ∧
      (∀ side, (t.detrim side).accepted = true ↔ 0 < (t.trimmedAt side).length) ∧
      (∀ side, 0 < (t.trimmedAt side).length →
        t.spans[t.innermost side]? = (t.trimmedAt side).getLast? ∧
          ∃ trims, t.detrim side = .accept { t with
              spans := t.mark (t.innermost side) false
              trims } ∧
            logged side trims = (logged side t.trims).dropLast ∧
            ∀ other, other ≠ side → logged other trims = logged other t.trims) ∧
      ∀ e ∈ t.trims, ∃ i, (t.spans.findIdx? fun s => s.start == e.segmentStart) = some i := by
  have h_sound := h.sound h_epsilon
  refine ⟨h_sound.logged_eq, ?_, ?_, ?_, fun e he => h_sound.exists_findIdx? he⟩
  · -- the log has an entry for each trimmed span, and each entry belongs to one side
    rw [← length_logged_add, h_sound.logged_eq, h_sound.logged_eq, List.length_map,
      List.length_map]
  · intro side
    -- refused is a detrim only where nothing is trimmed
    constructor
    · intro h_accepted
      refine List.length_pos_of_ne_nil ?_
      intro h_nil
      rw [h_sound.detrim_eq_refuse h_nil] at h_accepted
      exact absurd h_accepted (by simp)
    · intro h_pos
      obtain ⟨-, trims, h_eq, -⟩ := h_sound.detrim_eq (List.ne_nil_of_length_pos h_pos)
      rw [h_eq]
      rfl
  · intro side h_pos
    exact h_sound.detrim_eq (List.ne_nil_of_length_pos h_pos)

theorem history_agrees_of_two_trims :
    ∃ t : Timeline Float, t.Reachable ∧ 0 < t.epsilon ∧
      logged .start t.trims = [0] ∧ logged .stop t.trims = [7.0] ∧
      (t.detrim .stop).accepted = true := by
  have h : Reachable (run (⟨10.0, [⟨0, 10.0, 1.0, false⟩], [], 0.01, .keepLeft⟩ : Timeline Float)
      [.edit (.addBoundary 4.0), .edit (.addBoundary 7.0), .edit (.trim 0), .edit (.trim 2)]) :=
    ⟨10.0, 0.01, .keepLeft, _, _, rfl, rfl⟩
  have h_epsilon : (0 : Float) < 0.01 := by decide
  obtain ⟨h_log, -, h_accepted, -⟩ := history_agrees h h_epsilon
  refine ⟨_, h, h_epsilon, ?_, ?_, (h_accepted .stop).mpr (by decide +kernel)⟩
  · rw [h_log]
    decide +kernel
  · rw [h_log]
    decide +kernel

end Timeline

end ClipEdit
