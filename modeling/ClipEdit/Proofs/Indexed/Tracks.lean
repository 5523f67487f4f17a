import ClipEdit.Proofs.Indexed.Keys

/-!
# No misstep on the row of a track

Everything that the row of keyframes of a sound track is asked for, and every edit of it, is carried
out by position without a misstep, and comes to what the track says.

The ends of the row are where they have to be because a track cannot be without them. All other
positions come from the search, so the proofs go by the ways in which a frame falls: `slot_start`,
`slot_key`, `slot_gap`, `slot_end` and `slot_past` say where the search ends for each of them, and
the lemmas about reads and edits put what is found there in relation to the user's keyframes.
-/

namespace ClipEdit

open Scalar Checked

namespace Track

variable {V : Type} {t : Track V} {frame : Frame}

/-! ### The ends of a row -/

@[simp] theorem endFrame_row (t : Track V) : t.row.endFrame = .ok t.endFrame := by
  unfold KeyRow.endFrame
  rw [keys_row, keyframes_end, readLast_append]
  rfl

@[simp] theorem startValue_row (t : Track V) : t.row.startValue = .ok t.start := rfl

@[simp] theorem endValue_row (t : Track V) : t.row.endValue = .ok t.endValue := by
  unfold KeyRow.endValue endValue
  rw [endMode_row]
  cases t.endMode with
  | implicit => rfl
  | explicit =>
    dsimp only
    rw [keys_row, keyframes_end, readLast_append]
    rfl

/-! ### Where the search ends -/

section Slots

variable {u w : List (Frame × V)} {value : V}

theorem Sound.slot_start (h : t.Sound) : t.row.slot 0 = .ok (.taken 0) := by
  have h_behind := lt_behind (fun key h_key => (h.between key h_key).1) h.zero_lt_endFrame
  unfold KeyRow.slot
  rw [keys_row, keyframes_start]
  exact KeyRow.bisect_taken (a := []) rfl (by simp) h_behind (Nat.zero_le _) (by simp) le_rfl

theorem slot_key (h_inner : t.inner = u ++ (frame, value) :: w) (hu : ∀ key ∈ u, key.1 < frame)
    (hw : ∀ key ∈ w, frame < key.1) (h_pos : 0 < frame) (h_lt : frame < t.endFrame) :
    t.row.slot frame = .ok (.taken (t.before u).length) := by
  unfold KeyRow.slot
  rw [keys_row, keyframes_key h_inner]
  exact KeyRow.bisect_taken rfl (before_lt hu h_pos) (lt_behind hw h_lt) (Nat.zero_le _) (by simp)
    le_rfl

theorem slot_gap (h_inner : t.inner = u ++ w) (hu : ∀ key ∈ u, key.1 < frame)
    (hw : ∀ key ∈ w, frame < key.1) (h_pos : 0 < frame) (h_lt : frame < t.endFrame) :
    t.row.slot frame = .ok (.free (t.before u).length) := by
  unfold KeyRow.slot
  rw [keys_row, keyframes_gap h_inner]
  exact KeyRow.bisect_free (before_lt hu h_pos) (lt_behind hw h_lt) (Nat.zero_le _) (by simp) le_rfl

theorem Sound.slot_end (h : t.Sound) :
    t.row.slot t.endFrame = .ok (.taken (t.before t.inner).length) := by
  have h_before : ∀ k ∈ t.before t.inner, k.frame < t.endFrame :=
    before_lt (fun key h_key => (h.between key h_key).2) h.zero_lt_endFrame
  unfold KeyRow.slot
  rw [keys_row, keyframes_end]
  exact KeyRow.bisect_taken rfl h_before (by simp) (Nat.zero_le _) (by simp) le_rfl

theorem Sound.slot_past (h : t.Sound) (h_past : t.endFrame < frame) :
    t.row.slot frame = .ok (.free t.keyframes.length) := by
  have h_all : ∀ k ∈ t.keyframes, k.frame < frame := by
    intro k hk
    exact (h.le_endFrame k.frame (List.mem_map_of_mem hk)).trans_lt h_past
  have h_eq := KeyRow.bisect_free (b := []) h_all (by simp) (Nat.zero_le _) (by simp)
    (Nat.le_refl _)
  unfold KeyRow.slot
  simpa using h_eq

end Slots

/-! ### Looking up -/

/-- The user has no keyframe at the start. -/
theorem Sound.lookup_zero (h : t.Sound) : t.inner.lookup 0 = none :=
  lookup_eq_none fun key h_key => (h.between key h_key).1.ne'

/-- The user has no keyframe at the end or behind it. -/
theorem Sound.lookup_of_le (h : t.Sound) (h_le : t.endFrame ≤ frame) :
    t.inner.lookup frame = none :=
  lookup_eq_none fun key h_key => ((h.between key h_key).2.trans_le h_le).ne

/-- The user has no keyframe in a gap. -/
theorem lookup_gap {u w : List (Frame × V)} (h_inner : t.inner = u ++ w)
    (hu : ∀ key ∈ u, key.1 < frame) (hw : ∀ key ∈ w, frame < key.1) :
    t.inner.lookup frame = none := by
  rw [h_inner]
  refine lookup_eq_none ?_
  intro key h_key
  rcases List.mem_append.mp h_key with h_key | h_key
  · exact (hu key h_key).ne
  · exact (hw key h_key).ne'

theorem Sound.get?_row (h : t.Sound) (frame : Frame) : t.row.get? frame = .ok (t.get? frame) := by
  unfold KeyRow.get? get?
  rw [endFrame_row, ok_bind]
  -- the end is answered without a search
  by_cases h_end : frame = t.endFrame
  · rw [if_pos h_end, if_pos h_end, endValue_row]
    rfl
  · rw [if_neg h_end, if_neg h_end]
    -- any other frame is searched for, and the search ends as the frame falls
    cases h.falls frame with
    | onStart h_frame =>
      subst h_frame
      rw [h.slot_start, if_pos rfl]
      rfl
    | onKey u value w h_inner hu hw h_pos h_lt =>
      rw [slot_key h_inner hu hw h_pos h_lt, ok_bind, if_neg h_pos.ne', h_inner, lookup_place hu]
      dsimp only
      rw [keys_row, keyframes_key h_inner, read_place]
      rfl
    | inGap u w h_inner hu hw h_pos h_lt =>
      rw [slot_gap h_inner hu hw h_pos h_lt, if_neg h_pos.ne', lookup_gap h_inner hu hw]
      rfl
    | onEnd h_frame => exact absurd h_frame h_end
    | past h_past =>
      have h_ne : frame ≠ 0 := (h.zero_lt_endFrame.trans h_past).ne'
      rw [h.slot_past h_past, if_neg h_ne, h.lookup_of_le h_past.le]
      rfl

theorem Sound.contains_row (h : t.Sound) (frame : Frame) :
    t.row.contains frame = .ok (t.contains frame) := by
  unfold KeyRow.contains contains
  -- here the search is made at both ends, too
  cases h.falls frame with
  | onStart h_frame =>
    subst h_frame
    rw [h.slot_start]
    rfl
  | onKey u value w h_inner hu hw h_pos h_lt =>
    rw [slot_key h_inner hu hw h_pos h_lt, h_inner, lookup_place hu]
    simp
  | inGap u w h_inner hu hw h_pos h_lt =>
    rw [slot_gap h_inner hu hw h_pos h_lt, lookup_gap h_inner hu hw]
    simp [h_pos.ne', h_lt.ne]
  | onEnd h_frame =>
    subst h_frame
    rw [h.slot_end]
    simp
  | past h_past =>
    have h_ne : frame ≠ 0 := (h.zero_lt_endFrame.trans h_past).ne'
    rw [h.slot_past h_past, h.lookup_of_le h_past.le]
    simp [h_ne, h_past.ne']

theorem shown_row (t : Track V) : t.row.shown = .ok t.shown := by
  unfold KeyRow.shown shown
  rw [endFrame_row, ok_bind]
  refine mapM_eq ?_
  intro k _
  rw [endValue_row]
  split
  · rfl
  · rfl

/-! ### Editing -/

theorem row_key (t : Track V) (u w : List (Frame × V)) (key : Frame × V) :
    ({ t with inner := u ++ key :: w } : Track V).row =
      ⟨t.before u ++ userKey key :: t.behind w, t.endMode⟩ := by
  simp [row, keyframes_eq, before, behind]

theorem row_gap (t : Track V) (u w : List (Frame × V)) :
    ({ t with inner := u ++ w } : Track V).row = ⟨t.before u ++ t.behind w, t.endMode⟩ := by
  simp [row, keyframes_eq, before, behind]

theorem Sound.write_start (h : t.Sound) (value : V) :
    t.row.write 0 value = .ok ({ t with start := value } : Track V).row := by
  unfold KeyRow.write
  rw [h.slot_start]
  rfl

/-- A write between the start and the end goes over the keyframe there or into a gap. -/
theorem Sound.write_inner (h : t.Sound) (h_pos : 0 < frame) (h_lt : frame < t.endFrame)
    (value : V) : t.row.write frame value =
      .ok ({ t with inner := insertKey frame value t.inner } : Track V).row := by
  unfold KeyRow.write
  -- strictly between the two ends a frame falls on a key or into a gap
  cases h.falls frame with
  | onKey u old w h_inner hu hw =>
    rw [slot_key h_inner hu hw h_pos h_lt, ok_bind, h_inner, insertKey_place hu, row_key]
    dsimp only
    rw [keys_row, keyframes_key h_inner, rewrite_place]
    rfl
  | inGap u w h_inner hu hw =>
    rw [slot_gap h_inner hu hw h_pos h_lt, ok_bind, h_inner, insertKey_gap hu hw, row_key]
    dsimp only
    rw [keys_row, keyframes_gap h_inner, insertAt_place]
    rfl
  | onStart h_frame => exact absurd h_frame h_pos.ne'
  | onEnd h_frame => exact absurd h_frame h_lt.ne
  | past h_past => exact absurd h_past h_lt.not_gt

theorem follow_row (t : Track V) :
    t.row.follow = .ok ({ t with storedEnd := t.start } : Track V).row := by
  unfold KeyRow.follow
  rw [startValue_row, ok_bind, keys_row, keyframes_end, rewriteLast_append]
  rfl

theorem Sound.insert_row (h : t.Sound) (frame : Frame) (value : V) :
    t.row.insert frame value = .ok ((t.insert frame value).map row) := by
  unfold KeyRow.insert
  rw [endFrame_row, ok_bind]
  rcases t.insert_cases frame value with ⟨h_past, h_eq⟩ | ⟨h_end, h_eq⟩ | ⟨h_zero, h_pos, h_eq⟩ |
    ⟨h_pos, h_lt, h_eq⟩
  · rw [h_eq, if_pos h_past]
    rfl
  · rw [h_eq, if_neg h_end.not_gt, if_pos h_end, keys_row, keyframes_end, rewriteLast_append]
    rfl
  · -- at the start the last keyframe is written again, if it follows
    subst h_zero
    rw [h_eq, if_neg (Nat.not_lt_zero _), if_neg h_pos.ne, h.write_start, ok_bind, follow_row]
    by_cases h_mode : t.endMode = .implicit
    · rw [if_pos ⟨rfl, h_mode⟩, if_pos h_mode]
      rfl
    · rw [if_neg fun h_both => h_mode h_both.2, if_neg h_mode]
      rfl
  · rw [h_eq, if_neg h_lt.not_gt, if_neg h_lt.ne, h.write_inner h_pos h_lt, ok_bind,
      if_neg fun h_both => h_pos.ne' h_both.1]
    rfl

theorem Sound.erase_row (h : t.Sound) (frame : Frame) :
    t.row.erase frame = .ok ((t.erase frame).map row) := by
  unfold KeyRow.erase erase
  cases h.falls frame with
  | onStart h_frame =>
    subst h_frame
    rw [h.slot_start, h.lookup_zero]
    rfl
  | onKey u value w h_inner hu hw h_pos h_lt =>
    -- the one case in which a keyframe goes: the search finds it and its origin allows it
    have h_user : (userKey (frame, value)).origin = .user := rfl
    have h_found : (t.inner.lookup frame).isSome = true := by
      rw [h_inner, lookup_place hu]
      rfl
    rw [if_pos h_found, slot_key h_inner hu hw h_pos h_lt, ok_bind]
    dsimp only
    rw [keys_row, keyframes_key h_inner, read_place, ok_bind, if_pos h_user, removeAt_place,
      ok_bind, h_inner, filter_place hu hw, Outcome.map, Outcome.state_accept, row_gap]
    rfl
  | inGap u w h_inner hu hw h_pos h_lt =>
    rw [slot_gap h_inner hu hw h_pos h_lt, lookup_gap h_inner hu hw]
    rfl
  | onEnd h_frame =>
    -- the search finds the end, and the end is not the user's
    subst h_frame
    rw [h.slot_end, h.lookup_of_le le_rfl, ok_bind]
    dsimp only
    rw [keys_row, keyframes_end, read_place]
    rfl
  | past h_past =>
    rw [h.slot_past h_past, h.lookup_of_le h_past.le]
    rfl

/-! ### Blending -/

section Scalars

variable {α : Type} [Scalar α]

theorem Sound.valueAt?_row (h : t.Sound) (time : α) (fps : Nat) :
    t.row.valueAt? time fps = .ok (t.valueAt? time fps) := by
  unfold KeyRow.valueAt? valueAt?
  dsimp only
  split
  · rfl
  · exact h.get?_row _

theorem markerAt_row (settings : Settings α) (t : Track V) (pointer width : α) :
    t.row.markerAt settings pointer width = .ok (t.markerAt settings pointer width) := by
  unfold KeyRow.markerAt
  rw [endFrame_row]
  rfl

/-- **In a gap** there is a keyframe before the place that was found, the frames of the two
neighbours differ, and the scan along the track stops between the same two. -/
theorem sample_gap [Blend α V] {u w : List (Frame × V)} (h_inner : t.inner = u ++ w)
    (hu : ∀ key ∈ u, key.1 < frame) (hw : ∀ key ∈ w, frame < key.1) (h_pos : 0 < frame)
    (h_lt : frame < t.endFrame) : t.row.sample frame = .ok (t.sample frame) := by
  obtain ⟨p, previous, h_before⟩ : ∃ p previous, t.before u = p ++ [previous] :=
    ⟨_, _, (List.dropLast_append_getLast (List.cons_ne_nil _ _)).symm⟩
  obtain ⟨next, rest, h_behind⟩ : ∃ next rest, t.behind w = next :: rest :=
    List.exists_cons_of_ne_nil (by simp [behind])
  have h_before_lt : ∀ k ∈ t.before u, k.frame < frame := before_lt hu h_pos
  have h_previous : previous.frame < frame := h_before_lt previous (by simp [h_before])
  have h_next : frame < next.frame := lt_behind hw h_lt next (by simp [h_behind])
  -- the scan of the track
  have h_tail : t.keyframes.tail = u.map userKey ++ next :: rest := by
    rw [keyframes_gap h_inner, h_behind]
    rfl
  have h_scan : t.sample frame = Blend.blend previous.value next.value
      (((frame - previous.frame : Nat) : α) / ((next.frame - previous.frame : Nat) : α)) := by
    rw [sample, if_neg h_lt.not_ge, if_neg h_pos.ne', h_tail]
    exact sampleFrom_free (fun k hk => h_before_lt k (List.mem_cons_of_mem _ hk)) h_next h_before
  -- the positions in the row
  have h_keys : t.keyframes = p ++ previous :: next :: rest := by
    rw [keyframes_gap h_inner, h_before, h_behind, List.append_assoc, List.singleton_append]
  have h_slot : t.row.slot frame = .ok (.free (p.length + 1)) := by
    rw [slot_gap h_inner hu hw h_pos h_lt, h_before, List.length_append, List.length_singleton]
  have h_inside : ¬ t.keyframes.length ≤ p.length + 1 := by simp [h_keys]
  have h_read_previous : read t.keyframes p.length = .ok previous := by rw [h_keys, read_place]
  have h_read_next : read t.keyframes (p.length + 1) = .ok next := read_eq (by simp [h_keys])
  unfold KeyRow.sample
  rw [h_slot, ok_bind]
  dsimp only
  rw [keys_row, if_neg h_inside, minus_eq (Nat.le_add_left 1 _), Nat.add_sub_cancel, ok_bind,
    h_read_previous, ok_bind, h_read_next, ok_bind, minus_eq h_previous.le, ok_bind,
    gap_eq (h_previous.trans h_next), ok_bind, h_scan]
  rfl

theorem Sound.sample_row [Blend α V] (h : t.Sound) (frame : Frame) :
    t.row.sample frame = .ok (t.sample frame) := by
  cases h.falls frame with
  | inGap u w h_inner hu hw h_pos h_lt => exact sample_gap h_inner hu hw h_pos h_lt
  | onStart h_frame =>
    -- the start is not the last keyframe
    subst h_frame
    have h_last : minus t.keyframes.length 1 = .ok (t.inner.length + 1) := by
      rw [minus_eq (by simp [keyframes_eq])]
      simp [keyframes_eq]
    unfold KeyRow.sample sample
    rw [h.slot_start, ok_bind, if_neg h.zero_lt_endFrame.not_ge, if_pos rfl]
    dsimp only
    rw [keys_row, h_last, ok_bind, if_neg (Nat.succ_ne_zero _).symm]
    rfl
  | onKey u value w h_inner hu hw h_pos h_lt =>
    have h_before_lt : ∀ k ∈ t.before u, k.frame < frame := before_lt hu h_pos
    have h_tail : t.keyframes.tail = u.map userKey ++ userKey (frame, value) :: t.behind w := by
      rw [keyframes_key h_inner]
      rfl
    -- the scan takes the last keyframe not behind the frame, which is the one that was found
    have h_scan : t.sample frame = value := by
      rw [sample, if_neg h_lt.not_ge, if_neg h_pos.ne', h_tail]
      exact sampleFrom_taken rfl fun k hk => h_before_lt k (List.mem_cons_of_mem _ hk)
    -- the end stands behind it
    have h_not_last : ¬ (t.before u).length = t.keyframes.length - 1 := by
      simp [keyframes_key h_inner, behind]
    unfold KeyRow.sample
    rw [slot_key h_inner hu hw h_pos h_lt, ok_bind, h_scan]
    dsimp only
    rw [keys_row, minus_eq (by simp [keyframes_eq]), ok_bind, if_neg h_not_last,
      keyframes_key h_inner, read_place]
    rfl
  | onEnd h_frame =>
    subst h_frame
    unfold KeyRow.sample sample
    rw [h.slot_end, ok_bind, if_pos le_rfl]
    dsimp only
    rw [keys_row, keyframes_end, minus_length_append, ok_bind, if_pos rfl, endValue_row]
  | past h_past =>
    unfold KeyRow.sample sample
    rw [h.slot_past h_past, ok_bind, if_pos h_past.le]
    dsimp only
    rw [keys_row, if_pos le_rfl, endValue_row]

end Scalars

end Track

/-! ### Questions -/

/-- What can be asked of a track. -/
inductive Track.Query (α : Type) where
  | keyframes
  | frames
  | size
  | endMode
  | endFrame
  | startValue
  | endValue
  | get (frame : Frame)
  | copy (frame : Frame)
  | contains (frame : Frame)
  | valueAt (time : α) (fps : Nat)
  | sample (frame : Frame)
  | markerAt (settings : Settings α) (pointer width : α)

/-- The type of the answer to a question. -/
def Track.Query.Answer (V : Type) {α : Type} : Track.Query α → Type
  | .keyframes => List (Keyframe V)
  | .frames => List Frame
  | .size => Nat
  | .endMode => EndMode
  | .endFrame => Frame
  | .startValue => V
  | .endValue => V
  | .get _ => Option V
  | .copy _ => Option V
  | .contains _ => Bool
  | .valueAt _ _ => Option V
  | .sample _ => V
  | .markerAt _ _ _ => Option Nat

section Questions

variable {V α : Type} [Scalar α] [Blend α V]

/-- The answer of a track. -/
def Track.ask (t : Track V) : (q : Track.Query α) → q.Answer V
  | .keyframes => t.keyframes
  | .frames => t.frames
  | .size => t.size
  | .endMode => t.endMode
  | .endFrame => t.endFrame
  | .startValue => t.start
  | .endValue => t.endValue
  | .get frame => t.get? frame
  | .copy frame => t.copy? frame
  | .contains frame => t.contains frame
  | .valueAt time fps => t.valueAt? time fps
  | .sample frame => t.sample frame
  | .markerAt settings pointer width => t.markerAt settings pointer width

/-- The answer of a row. -/
def KeyRow.ask (r : KeyRow V) : (q : Track.Query α) → Checked (q.Answer V)
  | .keyframes => .ok r.keys
  | .frames => .ok (r.keys.map Keyframe.frame)
  | .size => .ok r.keys.length
  | .endMode => .ok r.endMode
  | .endFrame => r.endFrame
  | .startValue => r.startValue
  | .endValue => r.endValue
  | .get frame => r.get? frame
  | .copy frame => r.get? frame
  | .contains frame => r.contains frame
  | .valueAt time fps => r.valueAt? time fps
  | .sample frame => r.sample frame
  | .markerAt settings pointer width => r.markerAt settings pointer width

/-- **Every question to the row of a sound track** is answered, as the track answers it. -/
theorem Track.Sound.ask_row {t : Track V} (h : t.Sound) (q : Track.Query α) :
    t.row.ask q = .ok (t.ask q) := by
  cases q with
  -- four questions are answered by the row itself, all others by a lemma of their own
  | keyframes => rfl
  | frames => rfl
  | size => rfl
  | endMode => rfl
  | endFrame => exact t.endFrame_row
  | startValue => exact t.startValue_row
  | endValue => exact t.endValue_row
  | get frame => exact h.get?_row frame
  | copy frame => exact h.get?_row frame
  | contains frame => exact h.contains_row frame
  | valueAt time fps => exact h.valueAt?_row time fps
  | sample frame => exact h.sample_row frame
  | markerAt settings pointer width => exact t.markerAt_row settings pointer width

/-- A row without keyframes, which no track has, would make a misstep at once. -/
example : (⟨[], .implicit⟩ : KeyRow Nat).endFrame = .error (.belowZero 0 1) := rfl

end Questions

end ClipEdit
