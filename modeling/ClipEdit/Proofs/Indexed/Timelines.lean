import ClipEdit.Proofs.Indexed.Segments
import ClipEdit.Proofs.Timeline.Reachable
import ClipEdit.Timeline.Strip

/-!
# No misstep on the row of a timeline

Every edit of the row of a timeline, and everything it is asked for, is carried out by position
without a misstep, and comes to what the timeline says (`apply_row`, `ask_row`).

All that the row needs for this is that it is not empty: numbering and the look-up of the very end
of the clip take one from its length. The positions of all other steps come from searches of the
row, or were compared with its length; a cut and a join move the segments behind them, so the
lemmas name the segment that is addressed with what lies before and behind it (`exists_segments`).
-/

namespace ClipEdit

open Scalar Checked

variable {α : Type}

namespace Timeline

variable {t : Timeline α} {time : α} {i : Nat}

/-! ### The row of a timeline -/

@[simp] theorem timeline_row (t : Timeline α) : t.row.timeline = t := by
  unfold SegmentRow.timeline row
  rw [map_toSpan_segments]

@[simp] theorem segments_row (t : Timeline α) : t.row.segments = t.segments := rfl

@[simp] theorem trims_row (t : Timeline α) : t.row.trims = t.trims := rfl

@[simp] theorem length_segments (t : Timeline α) : t.segments.length = t.spans.length := by
  simp [segments]

theorem getElem?_segments (t : Timeline α) (i : Nat) :
    t.segments[i]? = t.spans[i]?.map (t.numbered i) := by
  simp [segments, List.getElem?_mapIdx]

/-- A segment with what lies before and behind it, as the spans are parted. -/
theorem exists_segments {a b : List (Span α)} {s : Span α} (h : t.spans = a ++ s :: b) :
    ∃ u x w, t.segments = u ++ x :: w ∧ u.map Segment.toSpan = a ∧ x.toSpan = s ∧
      w.map Segment.toSpan = b := by
  have h_map := map_toSpan_segments t
  rw [h] at h_map
  obtain ⟨u, rest, h_eq, h_u, h_rest⟩ := List.map_eq_append_iff.mp h_map
  obtain ⟨x, w, rfl, h_x, h_w⟩ := List.map_eq_cons_iff.mp h_rest
  exact ⟨u, x, w, h_eq, h_u, h_x, h_w⟩

theorem read_segments {s : Span α} (h : t.spans[i]? = some s) :
    read t.segments i = .ok (t.numbered i s) := by
  refine read_eq ?_
  rw [getElem?_segments, h]
  rfl

/-- **Numbering**: segments that have the spans of a timeline, numbered, are its segments. -/
theorem renumber_eq {l : List (Segment α)} (h_ne : t.spans ≠ [])
    (h_spans : l.map Segment.toSpan = t.spans) : SegmentRow.renumber l = .ok t.segments := by
  have h_length : l.length = t.spans.length := by rw [← h_spans, List.length_map]
  have h_pos : 0 < t.spans.length := List.length_pos_iff.mpr h_ne
  -- the last position is the one that is one less than the length
  have h_last : ∀ i, (i == l.length - 1) = (i + 1 == t.spans.length) := by
    intro i
    rw [Bool.eq_iff_iff, beq_iff_eq, beq_iff_eq, h_length]
    omega
  unfold SegmentRow.renumber
  rw [minus_eq (h_length ▸ h_pos), ok_bind, pure_eq]
  congr 1
  refine List.ext_getElem? ?_
  intro i
  rw [getElem?_segments, ← h_spans, List.getElem?_map, List.getElem?_mapIdx, Option.map_map]
  congr 1
  funext s
  simp [numbered, h_last]

/-- A change of one span changes the segment at its position. -/
theorem segments_modify (t : Timeline α) (i : Nat) (f : Span α → Span α)
    (trims : List (TrimEntry α)) :
    ({ t with spans := t.spans.modify i f, trims } : Timeline α).segments =
      t.segments.modify i fun s => { s with toSpan := f s.toSpan } := by
  refine List.ext_getElem? ?_
  intro j
  rw [getElem?_segments, List.getElem?_modify, List.getElem?_modify, getElem?_segments]
  -- position by position: the one that is changed, and all others
  by_cases h : i = j
  · subst h
    cases t.spans[i]? with
    | none => rfl
    | some s => simp [numbered]
  · cases t.spans[j]? with
    | none => rfl
    | some s => simp [numbered, h]

variable [Scalar α]

theorem create_row (duration epsilon : α) (policy : MergePolicy) :
    SegmentRow.create duration epsilon policy =
      .ok ((create duration epsilon policy).map row) := by
  unfold SegmentRow.create create
  split
  · rfl
  · rfl

/-! ### Reading -/

theorem indexAt?_row (h_ne : t.spans ≠ []) (time : α) :
    t.row.indexAt? time = .ok (t.indexAt? time) := by
  have h_pos : 0 < t.spans.length := List.length_pos_iff.mpr h_ne
  -- the search looks at the spans only
  have h_find : (t.segments.findIdx? fun s => s.start ≤ time && decide (time < s.stop)) =
      t.spans.findIdx? fun s => s.start ≤ time && decide (time < s.stop) := by
    conv_rhs => rw [← map_toSpan_segments t, List.findIdx?_map]
    rfl
  unfold SegmentRow.indexAt? indexAt?
  show (if 0 ≤ time ∧ time ≤ t.duration then _ else _) = _
  split
  · rw [segments_row, length_segments, minus_eq h_pos, ok_bind]
    dsimp only
    rw [h_find]
    rfl
  · rfl

/-- The position of a time is one of the row. -/
theorem lt_of_indexAt? (h_ne : t.spans ≠ []) (h_at : t.indexAt? time = some i) :
    i < t.spans.length := by
  have h_pos : 0 < t.spans.length := List.length_pos_iff.mpr h_ne
  unfold indexAt? at h_at
  split at h_at
  · cases h_find : t.spans.findIdx? fun s => s.start ≤ time && decide (time < s.stop) with
    | none =>
      rw [h_find] at h_at
      -- the last span stands in for none, and there is one
      obtain rfl : t.spans.length - 1 = i := by simpa using h_at
      omega
    | some j =>
      rw [h_find] at h_at
      obtain rfl : j = i := by simpa using h_at
      exact (List.findIdx?_eq_some_iff_findIdx_eq.mp h_find).1
  · cases h_at

theorem trimRange_row (t : Timeline α) : t.row.trimRange = .ok t.trimRange := by
  unfold SegmentRow.trimRange trimRange
  rw [timeline_row]
  have h_last_eq : t.lastActive? = latest? (fun s => !s.isTrimmed) t.spans := rfl
  cases h_first : t.firstActive? with
  | none =>
    -- no span is active, and the range is empty on both sides
    have h_none : t.activeSpans = [] := by
      refine List.filter_eq_nil_iff.mpr ?_
      intro s hs
      simpa using List.findIdx?_eq_none_iff.mp h_first s hs
    rw [h_none]
    rfl
  | some first =>
    -- the first active span is `s`, with nothing active in front of it
    obtain ⟨a, s, b, h_spans, rfl, hs, ha⟩ := exists_place_of_findIdx? h_first
    rcases latest?_cases (fun s => !s.isTrimmed) t.spans with
      ⟨h_none, -⟩ | ⟨a', s', b', h_spans', hs', hb', h_last⟩
    · -- that no span is active cannot be, with `s` among them
      have h_mem : s ∈ t.spans := by simp [h_spans]
      rw [h_none s h_mem] at hs
      cases hs
    · -- the last one is `s'`; the two bound the list of active spans
      have h_head : t.activeSpans.head? = some s := by
        rw [activeSpans, h_spans]
        exact head?_filter_place hs ha
      have h_getLast : t.activeSpans.getLast? = some s' := by
        rw [activeSpans, h_spans']
        exact getLast?_filter_place hs' hb'
      -- both positions are in range, so neither of the two reads fails
      have h_read : read t.segments a.length = .ok (t.numbered a.length s) :=
        read_segments (by simp [h_spans])
      have h_read' : read t.segments a'.length = .ok (t.numbered a'.length s') :=
        read_segments (by simp [h_spans'])
      rw [h_last_eq, h_last, h_head, h_getLast]
      dsimp only
      rw [segments_row, h_read, ok_bind, h_read']
      rfl

/-! ### Boundaries -/

/-- A cut at a time that is free for it depends on the span that the time falls into. -/
theorem addBoundary_eq {a b : List (Span α)} {s : Span α} (h_free : t.isFreeForBoundary time = true)
    (h_spans : t.spans = a ++ s :: b) (h_at : t.indexAt? time = some a.length) :
    t.addBoundary time =
      if s.isTrimmed then .refuse t else .accept { t with spans := a ++ s.cut time ++ b } := by
  have h_get : t.spans[a.length]? = some s := by simp [h_spans]
  rw [addBoundary, if_neg (by simp [h_free]), h_at]
  dsimp only
  rw [h_get]
  dsimp only
  rw [h_spans]
  simp

theorem addBoundary_row (h_ne : t.spans ≠ []) (time : α) :
    t.row.addBoundary time = .ok ((t.addBoundary time).map row) := by
  unfold SegmentRow.addBoundary
  rw [timeline_row]
  cases h_free : t.isFreeForBoundary time with
  | false =>
    rw [addBoundary, h_free]
    rfl
  | true =>
    rw [if_neg (by simp), indexAt?_row h_ne, ok_bind]
    cases h_at : t.indexAt? time with
    | none =>
      rw [addBoundary, h_free, h_at]
      rfl
    | some i =>
      -- the position was found in the row, so there is a segment to cut
      obtain ⟨s, h_get⟩ : ∃ s, t.spans[i]? = some s :=
        ⟨_, List.getElem?_eq_getElem (lt_of_indexAt? h_ne h_at)⟩
      obtain ⟨a, b, h_spans, rfl⟩ := exists_place_of_getElem? h_get
      rw [addBoundary_eq h_free h_spans h_at]
      obtain ⟨u, x, w, h_segments, rfl, rfl, rfl⟩ := exists_segments h_spans
      dsimp only
      rw [segments_row, h_segments, List.length_map, read_place, ok_bind]
      split
      · rfl
      · -- the new segment goes in behind the one that was cut, and all are numbered again
        have h_insert : ∀ y z : Segment α,
            insertAt (u ++ y :: w) (u.length + 1) z = .ok (u ++ y :: z :: w) := by
          intro y z
          simpa using insertAt_place (a := u ++ [y]) (b := w) (s := z)
        have h_number := renumber_eq
          (t := { t with
            spans := u.map Segment.toSpan ++ x.toSpan.cut time ++ w.map Segment.toSpan })
          (l := u ++ { x with stop := time } :: SegmentRow.fresh time x.stop x.speed :: w)
          (by simp [Span.cut]) (by simp [Span.cut, SegmentRow.fresh])
        rw [rewrite_place, ok_bind, h_insert, ok_bind, h_number]
        rfl

/-- The search for a boundary passes the segments one by one. -/
theorem boundaryFrom?_row (t : Timeline α) (time : α) (i : Nat) :
    t.row.boundaryFrom? time i = .ok (((t.spans.drop i).findIdx? fun s =>
      t.isSameBoundary s.start time).map fun j => j + i) := by
  -- by the number of segments that are left to look at
  induction h_size : t.spans.length - i using Nat.strong_induction_on generalizing i with
  | _ n ih =>
    rw [SegmentRow.boundaryFrom?]
    split
    · next h_lt =>
      rw [segments_row, length_segments] at h_lt
      rw [segments_row, read_segments (List.getElem?_eq_getElem h_lt), ok_bind, timeline_row,
        List.drop_eq_getElem_cons h_lt, List.findIdx?_cons]
      show (if t.isSameBoundary t.spans[i].start time = true then _ else _) = _
      split
      · simp
      · rw [ih _ (by omega) (i + 1) rfl, Option.map_map]
        congr 2
        funext j
        simp only [Function.comp_apply]
        omega
    · next h_not =>
      rw [segments_row, length_segments] at h_not
      rw [List.drop_eq_nil_of_le (Nat.le_of_not_lt h_not)]
      rfl

/-- A join at a boundary depends on the two spans that meet there. -/
theorem removeBoundary_eq {a b : List (Span α)} {l r : Span α}
    (h_spans : t.spans = a ++ l :: r :: b)
    (h_at : (t.boundaries.findIdx? fun b => t.isSameBoundary b time) = some a.length) :
    t.removeBoundary time =
      if l.isTrimmed then .refuse t
      else if r.isTrimmed then .refuse t
      else .accept { t with spans := a ++ l.join t.mergePolicy r :: b } := by
  -- the checks on the two sides are made one after the other
  have h_left : t.spans[a.length]? = some l := by simp [h_spans]
  have h_right : t.spans[a.length + 1]? = some r := by simp [h_spans]
  cases hl : l.isTrimmed with
  | true => simp [removeBoundary, h_at, h_left, h_right, hl]
  | false =>
    cases hr : r.isTrimmed with
    | true => simp [removeBoundary, h_at, h_left, h_right, hr]
    | false => exact removeBoundary_eq_accept h_spans hl hr h_at

theorem removeBoundary_row (t : Timeline α) (time : α) :
    t.row.removeBoundary time = .ok ((t.removeBoundary time).map row) := by
  -- the first segment has no boundary before it, so the search leaves it out
  have h_find : (t.spans.drop 1).findIdx? (fun s => t.isSameBoundary s.start time) =
      t.boundaries.findIdx? fun b => t.isSameBoundary b time := by
    rw [boundaries, List.findIdx?_map, List.drop_one]
    rfl
  unfold SegmentRow.removeBoundary
  rw [boundaryFrom?_row, h_find, ok_bind]
  cases h_at : t.boundaries.findIdx? fun b => t.isSameBoundary b time with
  | none =>
    rw [removeBoundary, h_at]
    rfl
  | some i =>
    -- a boundary has a segment on either side
    have h_lt : i + 1 < t.spans.length := by
      have h_bound := (List.findIdx?_eq_some_iff_findIdx_eq.mp h_at).1
      simp only [boundaries, List.length_map, List.length_tail] at h_bound
      omega
    obtain ⟨l, h_left⟩ : ∃ l, t.spans[i]? = some l :=
      ⟨_, List.getElem?_eq_getElem (Nat.lt_of_succ_lt h_lt)⟩
    obtain ⟨r, h_right⟩ : ∃ r, t.spans[i + 1]? = some r := ⟨_, List.getElem?_eq_getElem h_lt⟩
    obtain ⟨a, b, h_spans, rfl⟩ := exists_place_of_neighbours h_left h_right
    rw [removeBoundary_eq h_spans h_at]
    obtain ⟨u, x, rest, h_segments, rfl, rfl, h_rest⟩ := exists_segments h_spans
    obtain ⟨y, w, rfl, rfl, rfl⟩ := List.map_eq_cons_iff.mp h_rest
    have h_read : read (u ++ x :: y :: w) (u.length + 1) = .ok y := read_eq (by simp)
    simp only [Option.map_some]
    rw [List.length_map, minus_eq (Nat.le_add_left 1 _), Nat.add_sub_cancel, ok_bind, segments_row,
      h_segments, read_place, ok_bind, h_read]
    split
    · rfl
    · rw [ok_bind]
      split
      · rfl
      · -- the right one is taken out, the left one rewritten in place, and all are numbered again
        have h_remove : removeAt (u ++ x :: y :: w) (u.length + 1) = .ok (y, u ++ x :: w) := by
          simpa using removeAt_place (a := u ++ [x]) (s := y) (b := w)
        have h_number := renumber_eq
          (t := { t with spans := u.map Segment.toSpan ++
            x.toSpan.join t.mergePolicy y.toSpan :: w.map Segment.toSpan })
          (l := u ++ { x with toSpan := x.toSpan.join t.mergePolicy y.toSpan } :: w)
          (by simp) (by simp)
        rw [h_remove, ok_bind, rewrite_place, ok_bind]
        show SegmentRow.renumber
          (u ++ { x with toSpan := x.toSpan.join t.mergePolicy y.toSpan } :: w) >>= _ = _
        rw [h_number]
        rfl

/-! ### Speeds -/

omit [Scalar α] in
/-- A step that changes the span of one segment, and maybe the log. -/
theorem rewrite_segments (h_lt : i < t.spans.length) (f : Span α → Span α)
    (trims : List (TrimEntry α)) :
    rewrite t.segments i (fun s => { s with toSpan := f s.toSpan }) =
      .ok ({ t with spans := t.spans.modify i f, trims } : Timeline α).segments := by
  rw [rewrite_eq (by rwa [length_segments]), segments_modify]

theorem setSpeed_row (t : Timeline α) (index : Nat) (speed : α) :
    t.row.setSpeed index speed = .ok ((t.setSpeed index speed).map row) := by
  unfold SegmentRow.setSpeed setSpeed
  rw [segments_row, getElem?_segments]
  cases h_bad : !isFinite speed || decide (speed ≤ 0) with
  | true => rfl
  | false =>
    rcases Nat.lt_or_ge index t.spans.length with h_lt | h_ge
    · rw [List.getElem?_eq_getElem h_lt, if_neg (by simp), if_neg (by simp [h_lt])]
      simp only [Option.map_some]
      rw [rewrite_segments h_lt (fun s => { s with speed }) t.trims]
      rfl
    · rw [List.getElem?_eq_none h_ge, if_neg (by simp), if_pos (by simp [h_ge])]
      rfl

/-! ### Trims -/

omit [Scalar α] in
theorem dropLatest_eq (p : TrimEntry α → Bool) (trims : List (TrimEntry α)) :
    SegmentRow.dropLatest p trims = .ok (withoutLatest p trims) := by
  unfold SegmentRow.dropLatest
  rcases latest?_cases p trims with ⟨h_none, h_latest⟩ | ⟨u, e, v, rfl, he, hv, h_latest⟩
  · have h_keep : trims.reverse.eraseP p = trims.reverse :=
      List.eraseP_of_forall_not fun e he => by simp [h_none e (List.mem_reverse.mp he)]
    rw [h_latest, withoutLatest, h_keep, List.reverse_reverse]
    rfl
  · rw [h_latest, withoutLatest_eq he hv]
    dsimp only
    rw [removeAt_place]
    rfl

theorem trim_row (t : Timeline α) (index : Nat) :
    t.row.trim index = .ok ((t.trim index).map row) := by
  unfold SegmentRow.trim trim
  rw [segments_row, getElem?_segments, timeline_row]
  cases h_get : t.spans[index]? with
  | none => rfl
  | some s =>
    -- the position is in range, so reads and writes there do not fail
    obtain ⟨h_lt, -⟩ := List.getElem?_eq_some_iff.mp h_get
    have h_read := read_segments h_get
    have h_mark : ∀ isTrimmed trims,
        rewrite t.segments index (fun s => { s with isTrimmed }) =
          .ok ({ t with spans := t.mark index isTrimmed, trims } : Timeline α).segments :=
      fun isTrimmed trims => rewrite_segments h_lt (fun s => { s with isTrimmed }) trims
    simp only [Option.map_some]
    show (if s.isTrimmed = true then _ else _) = _
    split
    · -- a trimmed span, which is given back if it is the innermost one
      unfold SegmentRow.untrim
      rw [timeline_row]
      split
      · rw [segments_row, h_read, ok_bind, dropLatest_eq, ok_bind,
          h_mark false (withoutLatest (fun entry => entry.segmentStart == s.start) t.trims)]
        rfl
      · rfl
    · -- a span that is shown, which is trimmed away if it is at one of the two ends
      split
      · rw [h_read, ok_bind, h_mark true (t.trims ++
          [⟨if t.firstActive? == some index then TrimSide.start else TrimSide.stop, s.start⟩])]
        rfl
      · rfl

theorem detrim_row (t : Timeline α) (side : TrimSide) :
    t.row.detrim side = .ok ((t.detrim side).map row) := by
  unfold SegmentRow.detrim
  rw [trims_row]
  rcases latest?_cases (fun entry => entry.side == side) t.trims with
    ⟨h_none, h_latest⟩ | ⟨u, e, v, h_trims, he, hv, h_latest⟩
  · rw [h_latest, detrim_eq_refuse h_none]
    rfl
  · -- the entry is taken off the log whether or not a segment begins where it says
    have h_find : (t.trims.reverse.find? fun x => x.side == side) = some e := by
      refine List.find?_eq_some_iff_append.mpr ⟨he, v.reverse, u.reverse, by simp [h_trims], ?_⟩
      intro x hx
      simp [hv x (List.mem_reverse.mp hx)]
    have h_log : withoutLatest (fun x => x.side == side) t.trims = u ++ v := by
      rw [h_trims]
      exact withoutLatest_eq he hv
    -- the flags that a row stores do not take part in the search
    have h_start : (t.segments.findIdx? fun s => s.start == e.segmentStart) =
        t.spans.findIdx? fun s => s.start == e.segmentStart := by
      conv_rhs => rw [← map_toSpan_segments t, List.findIdx?_map]
      rfl
    have h_removed : removeAt t.trims u.length = .ok (e, u ++ v) := by
      rw [h_trims, removeAt_place]
    rw [h_latest, detrim, h_find, h_log]
    dsimp only
    rw [h_removed, ok_bind]
    dsimp only
    rw [segments_row, h_start]
    cases h_at : t.spans.findIdx? fun s => s.start == e.segmentStart with
    | none => rfl
    | some j =>
      have h_lt : j < t.spans.length := (List.findIdx?_eq_some_iff_findIdx_eq.mp h_at).1
      dsimp only
      rw [rewrite_segments h_lt (fun s => { s with isTrimmed := false }) (u ++ v)]
      rfl

/-! ### Edits and questions -/

/-- **Every edit on the row of a timeline with spans** is carried out or refused, as it is on the
timeline. -/
theorem apply_row (h_ne : t.spans ≠ []) (e : Edit α) :
    t.row.apply e = .ok ((t.apply e).map row) := by
  cases e with
  | addBoundary time => exact addBoundary_row h_ne time
  | removeBoundary time => exact t.removeBoundary_row time
  | setSpeed index speed => exact t.setSpeed_row index speed
  | trim index => exact t.trim_row index
  | detrim side => exact t.detrim_row side

/-- Without a segment there would be no last position to number. -/
example : SegmentRow.renumber ([] : List (Segment ℚ)) = .error (.belowZero 0 1) := rfl

theorem spans_ne_nil_create {duration epsilon : α} {policy : MergePolicy}
    (h : create duration epsilon policy = .ok t) : t.spans ≠ [] := by
  unfold create at h
  split at h
  · cases h
  · cases h
    exact List.cons_ne_nil _ _

/-- No edit takes the last span away. -/
theorem spans_ne_nil_apply (h_ne : t.spans ≠ []) (e : Edit α) : (t.apply e).state.spans ≠ [] := by
  cases e with
  | addBoundary time =>
    rcases t.addBoundary_cases time with h | ⟨a, s, b, -, -, -, -, h⟩ <;> rw [apply, h]
    · exact h_ne
    · simp [Span.cut]
  | removeBoundary time =>
    rcases t.removeBoundary_cases time with h | ⟨a, l, r, b, -, -, -, -, h⟩ <;> rw [apply, h]
    · exact h_ne
    · simp
  | setSpeed index speed =>
    rcases t.setSpeed_cases index speed with h | ⟨a, s, b, -, -, -, -, h⟩ <;> rw [apply, h]
    · exact h_ne
    · simp
  | trim index =>
    rcases t.trim_cases index with h | ⟨a, s, b, -, -, -, -, h⟩ | ⟨a, s, b, -, -, -, -, h⟩ <;>
      rw [apply, h]
    · exact h_ne
    · simp
    · simp
  | detrim side =>
    -- the log may lose an entry without a span, the spans stay as many as they are
    have h_length : (t.detrim side).state.spans.length = t.spans.length := by
      unfold detrim mark
      split
      · rfl
      · dsimp only
        split
        · rfl
        · exact List.length_modify _ _ _
    rw [apply, ← List.length_pos_iff, h_length]
    exact List.length_pos_iff.mpr h_ne

/-- What can be asked of a timeline. -/
inductive Query (α : Type) where
  | duration
  | segments
  | segment (index : Nat)
  | boundaries
  | trims
  | mergePolicy
  | indexAt (time : α)
  | activeSegments
  | trimmedSegments
  | activeCount
  | visualDuration
  | trimRange
  | canTrim (index : Nat)
  | layout
  | indicators

/-- The type of the answer to a question. -/
def Query.Answer : Query α → Type
  | .duration => α
  | .segments => List (Segment α)
  | .segment _ => Option (Segment α)
  | .boundaries => List α
  | .trims => List (TrimEntry α)
  | .mergePolicy => MergePolicy
  | .indexAt _ => Option Nat
  | .activeSegments => List (Segment α)
  | .trimmedSegments => List (Segment α)
  | .activeCount => Nat
  | .visualDuration => α
  | .trimRange => TimeRange α
  | .canTrim _ => Bool
  | .layout => List (StripShare α)
  | .indicators => List (TrimMark α)

/-- The answer of a timeline. -/
def ask (t : Timeline α) : (q : Query α) → q.Answer
  | .duration => t.duration
  | .segments => t.segments
  | .segment index => t.segment? index
  | .boundaries => t.boundaries
  | .trims => t.trims
  | .mergePolicy => t.mergePolicy
  | .indexAt time => t.indexAt? time
  | .activeSegments => t.activeSegments
  | .trimmedSegments => t.trimmedSegments
  | .activeCount => t.activeCount
  | .visualDuration => t.visualDuration
  | .trimRange => t.trimRange
  | .canTrim index => t.canTrim index
  | .layout => t.layout
  | .indicators => t.indicators

end Timeline

namespace SegmentRow

/-- The answer of a row. -/
def ask [Scalar α] (r : SegmentRow α) : (q : Timeline.Query α) → Checked q.Answer
  | .duration => .ok r.duration
  | .segments => .ok r.segments
  | .segment index => .ok r.segments[index]?
  | .boundaries => .ok r.timeline.boundaries
  | .trims => .ok r.trims
  | .mergePolicy => .ok r.mergePolicy
  | .indexAt time => r.indexAt? time
  | .activeSegments => .ok (r.segments.filter fun s => !s.isTrimmed)
  | .trimmedSegments => .ok (r.segments.filter fun s => s.isTrimmed)
  | .activeCount => .ok r.timeline.activeCount
  | .visualDuration => .ok r.timeline.visualDuration
  | .trimRange => r.trimRange
  | .canTrim index => .ok (r.timeline.canTrim index)
  | .layout => .ok r.timeline.layout
  | .indicators => .ok r.timeline.indicators

end SegmentRow

/-- **Every question to the row of a timeline with spans** is answered, as the timeline answers
it. -/
theorem Timeline.ask_row [Scalar α] {t : Timeline α} (h_ne : t.spans ≠ []) (q : Timeline.Query α) :
    t.row.ask q = .ok (t.ask q) := by
  cases q with
  | segment index => exact congrArg Except.ok (t.getElem?_segments index)
  | indexAt time => exact indexAt?_row h_ne time
  | trimRange => exact t.trimRange_row
  | duration => rfl
  | segments => rfl
  | trims => rfl
  | mergePolicy => rfl
  | activeSegments => rfl
  | trimmedSegments => rfl
  -- the others are left to the timeline of the row
  | boundaries => exact congrArg (fun t : Timeline α => Except.ok t.boundaries) t.timeline_row
  | activeCount => exact congrArg (fun t : Timeline α => Except.ok t.activeCount) t.timeline_row
  | visualDuration =>
    exact congrArg (fun t : Timeline α => Except.ok t.visualDuration) t.timeline_row
  | canTrim index =>
    exact congrArg (fun t : Timeline α => Except.ok (t.canTrim index)) t.timeline_row
  | layout => exact congrArg (fun t : Timeline α => Except.ok t.layout) t.timeline_row
  | indicators => exact congrArg (fun t : Timeline α => Except.ok t.indicators) t.timeline_row

end ClipEdit
