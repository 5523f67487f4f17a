import ClipEdit.Proofs.Timeline.History

/-!
# Undoing trims

A trim can be undone at its position, with `trim`, and at its side, with `detrim`. The first looks at
what is trimmed, the second at the log, and for a reachable timeline the two are one:

* `Sound.trim_innermost` — bringing back the innermost span of a side is taking back the latest trim
  of that side;
* `Sound.exists_undo` — a trim that was carried out is undone in either way, and nothing is left of
  it;
* `Sound.length_trimmedAt_detrims`, `Sound.untrimmed_detrims` — a run of `detrim` brings back one
  span for each call and touches nothing but flags and log;
* `trims_undone` — so after as many calls for each side as spans are trimmed there, in any order, the
  timeline is `untrimmed`.
-/

namespace ClipEdit

open Scalar Gauge

variable {α : Type}

/-- Marking a span that is shown as shown changes nothing. -/
theorem Span.eq_self_of_shown {s : Span α} (hs : s.isTrimmed = false) :
    { s with isTrimmed := false } = s := by
  rw [← hs]

namespace Timeline

/-- The timeline with all of its spans shown, as if none of them had ever been trimmed. -/
def untrimmed (t : Timeline α) : Timeline α :=
  { t with
    spans := t.spans.map fun s => { s with isTrimmed := false }
    trims := [] }

/-- The timeline after trims were taken back, at one side after the other. -/
def detrims [Scalar α] (t : Timeline α) (sides : List TrimSide) : Timeline α :=
  t.run (sides.map fun side => .edit (.detrim side))

variable [Scalar α] {t : Timeline α} {s : Span α} {side : TrimSide}

@[simp] theorem detrims_nil : t.detrims [] = t := rfl

@[simp] theorem detrims_cons (sides : List TrimSide) :
    t.detrims (side :: sides) = (t.detrim side).state.detrims sides := rfl

variable [Gauge α]

/-- A trim that was just made is the latest of its side, and taking it back leaves nothing of it. -/
theorem Tiled.detrim_hidden {a b : List (Span α)}
    (h : ({ t with
      spans := a ++ { s with isTrimmed := true } :: b
      trims := t.trims ++ [⟨side, s.start⟩] } : Timeline α).Tiled)
    (h_spans : t.spans = a ++ s :: b) (hs : s.isTrimmed = false) :
    ({ t with
      spans := a ++ { s with isTrimmed := true } :: b
      trims := t.trims ++ [⟨side, s.start⟩] } : Timeline α).detrim side = .accept t := by
  have h_eq := h.detrim_eq_accept rfl rfl (by simp)
  simp only [Span.eq_self_of_shown hs, ← h_spans, List.append_nil] at h_eq
  exact h_eq

namespace Sound

/-- **By position and by history alike.** Bringing back the innermost span of a side is taking back
the latest trim of that side. -/
theorem trim_innermost (h : t.Sound) (h_ne : t.trimmedAt side ≠ []) :
    t.trim (t.innermost side) = t.detrim side := by
  obtain ⟨lead, shown, trail, h_parted⟩ := h.parted
  obtain ⟨a, s, b, u, v, h_spans, h_at, hs, h_inner, -, h_log, h_v⟩ := h.exists_innermost h_ne
  have h_mem : s ∈ t.spans := by
    rw [h_spans]
    simp
  rw [h_at, trim_eq_accept h_spans hs h_inner, h.tiled.detrim_eq_accept h_spans h_log h_v,
    h_parted.withoutLatest_eq h.tiled h_mem h_log h_v]

/-- **A trim that was carried out is undone in either way**, and nothing is left of it. -/
theorem exists_undo (h : t.Sound) {i : Nat} (h_get : t.spans[i]? = some s)
    (hs : s.isTrimmed = false) (h_accepted : (t.trim i).accepted = true) :
    ∃ side, (t.trim i).state.trims = t.trims ++ [⟨side, s.start⟩] ∧
      (t.trim i).state.detrim side = .accept t ∧ (t.trim i).state.trim i = .accept t := by
  obtain ⟨lead, shown, trail, h_parted⟩ := h.parted
  have h_spans := h_parted.spans_eq
  have h_sound := h.trim i
  rcases h_parted.trim_shown h_get hs h_accepted with ⟨rest, rfl, h_ne, rfl, h_eq⟩
    | ⟨rest, rfl, h_ne, rfl, h_eq⟩
  · -- the span has become the innermost one that is trimmed at the start
    have h_hidden := h_parted.hide_first h_ne
    rw [h_eq, Outcome.state_accept] at h_sound ⊢
    have h_undo := h_sound.tiled.detrim_hidden h_spans hs
    have h_same := h_sound.trim_innermost (by rw [h_hidden.trimmedAt_start]; simp)
    rw [h_hidden.innermost_start, h_undo] at h_same
    exact ⟨.start, rfl, h_undo, h_same⟩
  · -- or at the end
    have h_hidden := h_parted.hide_last h_ne
    rw [h_eq, Outcome.state_accept] at h_sound ⊢
    rw [List.append_assoc, List.singleton_append, ← List.append_assoc] at h_spans
    rw [← List.append_assoc] at h_sound h_hidden ⊢
    have h_undo := h_sound.tiled.detrim_hidden h_spans hs
    have h_same := h_sound.trim_innermost (by rw [h_hidden.trimmedAt_stop]; simp)
    rw [h_hidden.innermost_stop, h_undo] at h_same
    exact ⟨.stop, rfl, h_undo, h_same⟩

/-! ### Taking back one trim after the other -/

/-- Taking back a trim touches nothing but flags and log. -/
theorem untrimmed_detrim (h : t.Sound) (side : TrimSide) :
    (t.detrim side).state.untrimmed = t.untrimmed := by
  by_cases h_ne : t.trimmedAt side = []
  · rw [h.detrim_eq_refuse h_ne]
    rfl
  · obtain ⟨-, trims, h_eq, -⟩ := h.detrim_eq h_ne
    rw [h_eq, Outcome.state_accept, untrimmed, map_mark fun _ _ => rfl]
    rfl

/-- Each call brings back one span of its side and none of the other. -/
theorem length_trimmedAt_detrim (h : t.Sound) (h_ne : t.trimmedAt side ≠ []) (other : TrimSide) :
    ((t.detrim side).state.trimmedAt other).length + [side].count other
      = (t.trimmedAt other).length := by
  -- what is trimmed at a side is as long as the log of that side
  have h_length {t : Timeline α} (h : t.Sound) :
      (t.trimmedAt other).length = (logged other t.trims).length := by
    rw [h.logged_eq, List.length_map]
  have h_pos := List.length_pos_of_ne_nil h_ne
  obtain ⟨-, trims, h_eq, h_same, h_other⟩ := h.detrim_eq h_ne
  rw [h_length (h.detrim side), h_length h, h_eq, Outcome.state_accept]
  by_cases h_side : other = side
  · subst h_side
    rw [← List.length_map (f := Span.start), ← h.logged_eq] at h_pos
    rw [h_same, List.length_dropLast, List.count_singleton_self]
    omega
  · rw [h_other other h_side, List.count_eq_zero_of_not_mem (by simpa using h_side), Nat.add_zero]

theorem detrims (h : t.Sound) (sides : List TrimSide) : (t.detrims sides).Sound := h.run _

theorem untrimmed_detrims (h : t.Sound) (sides : List TrimSide) :
    (t.detrims sides).untrimmed = t.untrimmed := by
  induction sides generalizing t with
  | nil => rfl
  | cons side sides ih => rw [detrims_cons, ih (h.detrim side), h.untrimmed_detrim side]

/-- **A run of calls brings back one span for each call**, as long as there are that many. -/
theorem length_trimmedAt_detrims (h : t.Sound) (sides : List TrimSide)
    (h_enough : ∀ side, sides.count side ≤ (t.trimmedAt side).length) (other : TrimSide) :
    ((t.detrims sides).trimmedAt other).length + sides.count other
      = (t.trimmedAt other).length := by
  induction sides generalizing t with
  | nil => simp
  | cons side sides ih =>
    have h_ne : t.trimmedAt side ≠ [] := by
      have h_one := h_enough side
      rw [List.count_cons_self] at h_one
      exact List.ne_nil_of_length_pos (by omega)
    have h_step := h.length_trimmedAt_detrim h_ne
    -- the first call counts for its own side only
    have h_split : ∀ x, (side :: sides).count x = [side].count x + sides.count x := fun x => by
      rw [← List.singleton_append, List.count_append]
    -- what the other calls need is still there after the first one
    have h_enough' : ∀ x, sides.count x ≤ ((t.detrim side).state.trimmedAt x).length := by
      intro x
      have h_x := h_enough x
      rw [h_split, ← h_step x] at h_x
      omega
    rw [detrims_cons, h_split, ← h_step other, ← ih (h.detrim side) h_enough']
    omega

omit [Gauge α] in
/-- Where nothing is trimmed, nothing has to be brought back. -/
theorem untrimmed_eq_self (h : t.Sound) (h_nil : ∀ side, t.trimmedAt side = []) :
    t.untrimmed = t := by
  obtain ⟨lead, shown, trail, h_parted⟩ := h.parted
  have h_spans := h_parted.spans_eq
  have h_trims : t.trims = [] := by
    rw [← List.length_eq_zero_iff, ← length_logged_add, h.logged_eq, h.logged_eq, h_nil, h_nil]
    rfl
  -- neither side has a trimmed span, so all spans are in the part that is shown
  have h_lead := h_nil .start
  have h_trail := h_nil .stop
  rw [h_parted.trimmedAt_start] at h_lead
  rw [h_parted.trimmedAt_stop, List.reverse_eq_nil_iff] at h_trail
  rw [h_lead, h_trail, List.nil_append, List.append_nil] at h_spans
  have h_map : (t.spans.map fun s => { s with isTrimmed := false }) = t.spans := by
    rw [h_spans]
    refine (List.map_congr_left fun s hs => ?_).trans (List.map_id shown)
    exact Span.eq_self_of_shown (h_parted.isTrimmed_shown s hs)
  rw [untrimmed, h_map, ← h_trims]

/-- **In any order**, as many calls for each side as spans are trimmed there bring everything
back. -/
theorem detrims_eq_untrimmed (h : t.Sound) {sides : List TrimSide}
    (h_count : ∀ side, sides.count side = (t.trimmedAt side).length) :
    t.detrims sides = t.untrimmed := by
  rw [← h.untrimmed_detrims sides]
  refine ((h.detrims sides).untrimmed_eq_self fun side => ?_).symm
  have h_left := h.length_trimmedAt_detrims sides (fun x => (h_count x).le) side
  rw [h_count] at h_left
  exact List.length_eq_zero_iff.mp (by omega)

/-- None of these calls is refused: before each of them a span of its side is still trimmed. -/
theorem accepted_detrims (h : t.Sound) {sides before after : List TrimSide}
    (h_count : ∀ side, sides.count side = (t.trimmedAt side).length)
    (h_sides : sides = before ++ side :: after) :
    ((t.detrims before).detrim side).accepted = true := by
  -- each call before this one has used up one span of its own side
  have h_enough : ∀ x, before.count x + (side :: after).count x = (t.trimmedAt x).length := by
    intro x
    rw [← List.count_append, ← h_sides, h_count]
  have h_left := h.length_trimmedAt_detrims before
    (fun x => (Nat.le_add_right _ _).trans (h_enough x).le) side
  have h_one := h_enough side
  rw [List.count_cons_self] at h_one
  -- which leaves one for this call
  have h_ne : (t.detrims before).trimmedAt side ≠ [] := List.ne_nil_of_length_pos (by omega)
  obtain ⟨-, trims, h_eq, -⟩ := (h.detrims before).detrim_eq h_ne
  rw [h_eq]
  rfl

end Sound

/-- **Both ways to undo a trim agree**, in every reachable timeline. With `p` spans trimmed at the
start and `q` at the end, out of `n`:

* a trim that was carried out is undone by trimming the same position again, and by taking back the
  latest trim of the side that it was logged for;
* taking back the latest trim of the start is trimming position `p - 1`, and taking back the latest
  one of the end is trimming position `n - q`;
* `p` calls for the start and `q` calls for the end, in any order, are all carried out. They show all
  spans again, empty the log and change nothing else, and then there is nothing left to take back. -/
theorem trims_undone {t : Timeline Float} (h : t.Reachable) (h_epsilon : 0 < t.epsilon) :
    let p := (t.trimmedAt .start).length
    let q := (t.trimmedAt .stop).length
    (∀ i s, t.spans[i]? = some s → s.isTrimmed = false → (t.trim i).accepted = true →
        (t.trim i).state.trim i = .accept t ∧
          ∃ e, (t.trim i).state.trims = t.trims ++ [e] ∧
            (t.trim i).state.detrim e.side = .accept t) ∧
      (0 < p → t.detrim .start = t.trim (p - 1)) ∧
      (0 < q → t.detrim .stop = t.trim (t.spans.length - q)) ∧
      ∀ sides, sides.count .start = p → sides.count .stop = q →
        (∀ before side after, sides = before ++ side :: after →
            ((t.detrims before).detrim side).accepted = true) ∧
          t.detrims sides = t.untrimmed ∧ ∀ side, t.untrimmed.detrim side = .refuse t.untrimmed := by
  have h_sound := h.sound h_epsilon
  refine ⟨?_, ?_, ?_, ?_⟩
  · intro i s h_get hs h_accepted
    obtain ⟨side, h_trims, h_detrim, h_trim⟩ := h_sound.exists_undo h_get hs h_accepted
    exact ⟨h_trim, ⟨side, s.start⟩, h_trims, h_detrim⟩
  · exact fun h_pos => (h_sound.trim_innermost (List.ne_nil_of_length_pos h_pos)).symm
  · exact fun h_pos => (h_sound.trim_innermost (List.ne_nil_of_length_pos h_pos)).symm
  · intro sides h_start h_stop
    have h_count : ∀ side, sides.count side = (t.trimmedAt side).length := by
      rintro (_ | _)
      · exact h_start
      · exact h_stop
    have h_all := h_sound.detrims_eq_untrimmed h_count
    have h_left := h_sound.length_trimmedAt_detrims sides fun side => (h_count side).le
    refine ⟨fun before side after => h_sound.accepted_detrims h_count, h_all, fun side => ?_⟩
    -- nothing is trimmed at either side any more
    have h_none := h_left side
    rw [h_count] at h_none
    rw [← h_all]
    exact (h_sound.detrims sides).detrim_eq_refuse (List.length_eq_zero_iff.mp (by omega))

theorem trims_undone_of_three_trims :
    ∃ t : Timeline Float, t.Reachable ∧ 0 < t.epsilon ∧
      (t.trimmedAt .start).length = 2 ∧ (t.trimmedAt .stop).length = 1 ∧
      (t.trim 2).accepted = true ∧ (t.trim 2).state.trim 2 = .accept t ∧
      t.detrim .start = t.trim 1 ∧ t.detrim .stop = t.trim 4 ∧
      t.detrims [.start, .stop, .start] = t.untrimmed := by
  obtain ⟨t, h_t⟩ : ∃ t : Timeline Float,
      run ⟨10.0, [⟨0, 10.0, 1.0, false⟩], [], 0.01, .keepLeft⟩
        [.edit (.addBoundary 2.0), .edit (.addBoundary 4.0), .edit (.addBoundary 6.0),
          .edit (.addBoundary 8.0), .edit (.trim 0), .edit (.trim 4), .edit (.trim 1)] = t :=
    ⟨_, rfl⟩
  have h : t.Reachable := ⟨10.0, 0.01, .keepLeft, _, _, rfl, h_t⟩
  -- two parts are trimmed at the start and one at the end; the one in the middle is tried next
  have h_facts : 0 < t.epsilon ∧ (t.trimmedAt .start).length = 2 ∧
      (t.trimmedAt .stop).length = 1 ∧ (t.trim 2).accepted = true ∧
      t.spans[2]? = some ⟨4.0, 6.0, 1.0, false⟩ ∧ t.spans.length = 5 := by
    rw [← h_t]
    decide +kernel
  obtain ⟨h_epsilon, h_start, h_stop, h_accepted, h_get, h_length⟩ := h_facts
  obtain ⟨h_undo, h_first, h_last, h_all⟩ := trims_undone h h_epsilon
  rw [h_start] at h_first h_all
  rw [h_stop] at h_last h_all
  rw [h_length] at h_last
  exact ⟨t, h, h_epsilon, h_start, h_stop, h_accepted, (h_undo 2 _ h_get rfl h_accepted).1,
    h_first (by decide), h_last (by decide), (h_all [.start, .stop, .start] rfl rfl).2.1⟩

end Timeline

end ClipEdit
