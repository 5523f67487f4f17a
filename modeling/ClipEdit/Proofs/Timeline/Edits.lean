import ClipEdit.Timeline.Edit
import Mathlib.Data.List.Basic

/-!
# What an edit of a timeline does

One lemma for each edit says everything the edit can do. The edits address spans by position; the
lemmas name the span itself and what lies before and behind it, `t.spans = a ++ s :: b`, since a
cut, a join, a change of speed and a trim each touch one place of the list and nothing else.

* `addBoundary_cases`, `removeBoundary_cases`, `setSpeed_cases` — refused, or one place rewritten;
* `trim_cases` — refused, or the flag of one span turned over, together with one change to the log
  of trims;
* `removeBoundary_eq_accept`, `trim_eq_accept` — a join and a trim brought back that are carried out
  for certain;
* `detrim_eq_refuse`, `detrim_eq_accept` — the same for the latest trim of a side, when a span
  answers to its entry in the log;
* `withoutLatest_eq` — taking the latest entry of a kind out of a log.

That some span answers to every entry of the log is a fact about reachable timelines.
-/

namespace ClipEdit

open Scalar

/-! ### Places in a list -/

section Places

variable {β : Type} {l a b : List β} {s : β} {i : Nat} {p : β → Bool}

/-- The item at a position, with what lies before and behind it. -/
theorem exists_place_of_getElem? (h : l[i]? = some s) : ∃ a b, l = a ++ s :: b ∧ a.length = i := by
  obtain ⟨h_lt, rfl⟩ := List.getElem?_eq_some_iff.mp h
  refine ⟨l.take i, l.drop (i + 1), ?_, ?_⟩
  · rw [← List.drop_eq_getElem_cons h_lt, List.take_append_drop]
  · rw [List.length_take]
    omega

/-- Two neighbours, with what lies before and behind them. -/
theorem exists_place_of_neighbours {s' : β} (h : l[i]? = some s) (h' : l[i + 1]? = some s') :
    ∃ a b, l = a ++ s :: s' :: b ∧ a.length = i := by
  obtain ⟨a, rest, rfl, rfl⟩ := exists_place_of_getElem? h
  cases rest with
  | nil => simp at h'
  | cons x b =>
    obtain rfl : x = s' := by simpa using h'
    exact ⟨a, b, rfl, rfl⟩

/-- The first item with a property. -/
theorem findIdx?_place (ha : ∀ x ∈ a, p x = false) (hs : p s = true) :
    (a ++ s :: b).findIdx? p = some a.length := by
  have h_none : a.findIdx? p = none := List.findIdx?_eq_none_iff.mpr ha
  rw [List.findIdx?_append, h_none, List.findIdx?_cons, if_pos hs]
  exact congrArg some (Nat.zero_add a.length)

theorem exists_place_of_findIdx? (h : l.findIdx? p = some i) :
    ∃ a s b, l = a ++ s :: b ∧ a.length = i ∧ p s = true ∧ ∀ x ∈ a, p x = false := by
  obtain ⟨h_lt, hs, h_before⟩ := List.findIdx?_eq_some_iff_getElem.mp h
  obtain ⟨s, h_get⟩ : ∃ s, l[i] = s := ⟨_, rfl⟩
  rw [h_get] at hs
  obtain ⟨a, b, rfl, rfl⟩ :=
    exists_place_of_getElem? (List.getElem?_eq_some_iff.mpr ⟨h_lt, h_get⟩)
  refine ⟨a, s, b, rfl, rfl, hs, ?_⟩
  intro x hx
  obtain ⟨j, hj, rfl⟩ := List.getElem_of_mem hx
  have h_not := h_before j hj
  rw [List.getElem_append_left hj] at h_not
  simpa using h_not

theorem modify_place (f : β → β) : (a ++ s :: b).modify a.length f = a ++ f s :: b := by
  rw [List.modify_eq_take_cons_drop (by simp)]
  simp

end Places

namespace Timeline

variable {α : Type} [Scalar α] {t : Timeline α} {a b : List (Span α)} {s : Span α}

omit [Scalar α] in
/-- A log without the latest entry of a kind: nothing behind that entry is of the kind. -/
theorem withoutLatest_eq {p : TrimEntry α → Bool} {u v : List (TrimEntry α)} {e : TrimEntry α}
    (he : p e = true) (hv : ∀ x ∈ v, p x = false) : withoutLatest p (u ++ e :: v) = u ++ v := by
  -- the log is searched from its end, so the search passes all of `v` first
  have h_not : ∀ x ∈ v.reverse, ¬ p x = true := fun x hx => by
    rw [hv x (List.mem_reverse.mp hx)]
    simp
  rw [withoutLatest, List.reverse_append, List.reverse_cons, List.append_assoc,
    List.eraseP_append_right _ h_not, List.singleton_append, List.eraseP_cons_of_pos he,
    List.reverse_append, List.reverse_reverse, List.reverse_reverse]

/-! ### Boundaries and speeds -/

/-- A cut is refused, or it cuts the one span that the time falls into. -/
theorem addBoundary_cases (t : Timeline α) (time : α) :
    t.addBoundary time = .refuse t ∨
      ∃ a s b, t.spans = a ++ s :: b ∧ s.isTrimmed = false ∧
        t.isFreeForBoundary time = true ∧ t.indexAt? time = some a.length ∧
        t.addBoundary time = .accept { t with spans := a ++ s.cut time ++ b } := by
  unfold addBoundary
  split
  · exact Or.inl rfl
  · next h_free =>
    split
    · exact Or.inl rfl
    · next i h_at =>
      split
      · exact Or.inl rfl
      · next s h_get =>
        split
        · exact Or.inl rfl
        · -- all four checks are passed
          next h_shown =>
          obtain ⟨a, b, h_eq, rfl⟩ := exists_place_of_getElem? h_get
          refine Or.inr ⟨a, s, b, h_eq, by simpa using h_shown, by simpa using h_free, h_at, ?_⟩
          rw [h_eq]
          simp

/-- A join is refused, or it joins the two spans, both shown, that meet at the first boundary near
the time. -/
theorem removeBoundary_cases (t : Timeline α) (time : α) :
    t.removeBoundary time = .refuse t ∨
      ∃ a l r b, t.spans = a ++ l :: r :: b ∧ l.isTrimmed = false ∧ r.isTrimmed = false ∧
        (t.boundaries.findIdx? fun x => t.isSameBoundary x time) = some a.length ∧
        t.removeBoundary time
          = .accept { t with spans := a ++ l.join t.mergePolicy r :: b } := by
  unfold removeBoundary
  split
  · exact Or.inl rfl
  · next i h_at =>
    split
    · next l r h_left h_right =>
      split
      · exact Or.inl rfl
      · next h_shown =>
        -- a boundary was found, and neither of its two sides is trimmed
        simp only [Bool.or_eq_true, not_or, Bool.not_eq_true] at h_shown
        obtain ⟨a, b, h_eq, rfl⟩ := exists_place_of_neighbours h_left h_right
        refine Or.inr ⟨a, l, r, b, h_eq, h_shown.1, h_shown.2, h_at, ?_⟩
        rw [h_eq]
        simp [List.drop_append, List.drop_eq_nil_of_le]
    · exact Or.inl rfl

/-- Two neighbours that are shown are joined at the first boundary near a time, when they meet
there. -/
theorem removeBoundary_eq_accept {l r : Span α} {time : α} (h_spans : t.spans = a ++ l :: r :: b)
    (hl : l.isTrimmed = false) (hr : r.isTrimmed = false)
    (h_at : (t.boundaries.findIdx? fun x => t.isSameBoundary x time) = some a.length) :
    t.removeBoundary time
      = .accept { t with spans := a ++ l.join t.mergePolicy r :: b } := by
  have h_left : t.spans[a.length]? = some l := by simp [h_spans]
  have h_right : t.spans[a.length + 1]? = some r := by simp [h_spans]
  rw [removeBoundary, h_at]
  simp only [h_left, h_right, hl, hr, Bool.or_self, Bool.false_eq_true, if_false]
  rw [h_spans]
  simp [List.drop_append, List.drop_eq_nil_of_le]

/-- A change of speed is refused, or it gives one span a speed that is positive and finite. -/
theorem setSpeed_cases (t : Timeline α) (index : Nat) (speed : α) :
    t.setSpeed index speed = .refuse t ∨
      ∃ a s b, t.spans = a ++ s :: b ∧ a.length = index ∧ isFinite speed = true ∧ ¬ speed ≤ 0 ∧
        t.setSpeed index speed = .accept { t with spans := a ++ { s with speed } :: b } := by
  unfold setSpeed
  split
  · exact Or.inl rfl
  · next h =>
    simp only [Bool.or_eq_true, Bool.not_eq_true', decide_eq_true_eq, not_or,
      Bool.not_eq_false] at h
    -- the three checks are made at once
    obtain ⟨⟨h_fin, h_pos⟩, h_lt⟩ := h
    obtain ⟨s, h_get⟩ : ∃ s, t.spans[index]? = some s :=
      ⟨_, List.getElem?_eq_getElem (Nat.lt_of_not_le h_lt)⟩
    obtain ⟨a, b, h_eq, rfl⟩ := exists_place_of_getElem? h_get
    refine Or.inr ⟨a, s, b, h_eq, rfl, h_fin, h_pos, ?_⟩
    rw [h_eq, modify_place]

/-! ### Trims -/

omit [Scalar α] in
theorem mark_place (h : t.spans = a ++ s :: b) (isTrimmed : Bool) :
    t.mark a.length isTrimmed = a ++ { s with isTrimmed } :: b := by
  rw [mark, h, modify_place]

/-- A trim is refused, or it hides a span that may be trimmed and logs that at the end of the log,
or it shows an innermost trimmed span and takes its latest entry out of the log. -/
theorem trim_cases (t : Timeline α) (index : Nat) :
    t.trim index = .refuse t ∨
      (∃ a s b, t.spans = a ++ s :: b ∧ a.length = index ∧ s.isTrimmed = false ∧
        t.canTrim index = true ∧
        t.trim index = .accept { t with
          spans := a ++ { s with isTrimmed := true } :: b
          trims := t.trims ++
            [⟨if t.firstActive? == some index then .start else .stop, s.start⟩] }) ∨
      (∃ a s b, t.spans = a ++ s :: b ∧ a.length = index ∧ s.isTrimmed = true ∧
        t.isInnermost index = true ∧
        t.trim index = .accept { t with
          spans := a ++ { s with isTrimmed := false } :: b
          trims := withoutLatest (fun e => e.segmentStart == s.start) t.trims }) := by
  unfold trim
  split
  · exact Or.inl rfl
  · next s h_get =>
    obtain ⟨a, b, h_eq, rfl⟩ := exists_place_of_getElem? h_get
    split
    · -- a trimmed span is given back, if it is the innermost one of its side
      next h_trimmed =>
      split
      · next h_inner =>
        refine Or.inr (Or.inr ⟨a, s, b, h_eq, rfl, h_trimmed, h_inner, ?_⟩)
        rw [mark_place h_eq]
      · exact Or.inl rfl
    · -- a span that is shown is trimmed away, if it is the first or the last one
      next h_trimmed =>
      split
      · next h_can =>
        refine Or.inr (Or.inl ⟨a, s, b, h_eq, rfl, by simpa using h_trimmed, h_can, ?_⟩)
        rw [mark_place h_eq]
      · exact Or.inl rfl

/-- An innermost trimmed span is brought back by its position. -/
theorem trim_eq_accept (h_spans : t.spans = a ++ s :: b) (hs : s.isTrimmed = true)
    (h_inner : t.isInnermost a.length = true) :
    t.trim a.length = .accept { t with
      spans := a ++ { s with isTrimmed := false } :: b
      trims := withoutLatest (fun e => e.segmentStart == s.start) t.trims } := by
  have h_get : t.spans[a.length]? = some s := by simp [h_spans]
  rw [trim, h_get]
  simp only [hs, h_inner, if_true]
  rw [mark_place h_spans]

variable {side : TrimSide} {u v : List (TrimEntry α)} {e : TrimEntry α}

/-- Without a trim of a side there is nothing to take back. -/
theorem detrim_eq_refuse (h : ∀ x ∈ t.trims, (x.side == side) = false) :
    t.detrim side = .refuse t := by
  have h_find : (t.trims.reverse.find? fun x => x.side == side) = none :=
    List.find?_eq_none.mpr fun x hx => by simp [h x (List.mem_reverse.mp hx)]
  rw [detrim, h_find]

/-- Taking back a trim of a side takes the latest entry of that side out of the log and shows the
first span that begins where the entry says. -/
theorem detrim_eq_accept (h_spans : t.spans = a ++ s :: b) (h_trims : t.trims = u ++ e :: v)
    (he : (e.side == side) = true) (h_v : ∀ x ∈ v, (x.side == side) = false)
    (hs : (s.start == e.segmentStart) = true)
    (h_a : ∀ x ∈ a, (x.start == e.segmentStart) = false) :
    t.detrim side = .accept { t with
      spans := a ++ { s with isTrimmed := false } :: b
      trims := u ++ v } := by
  -- the entry is the first one of its side from the end of the log
  have h_find : (t.trims.reverse.find? fun x => x.side == side) = some e := by
    refine List.find?_eq_some_iff_append.mpr ⟨he, v.reverse, u.reverse, ?_, ?_⟩
    · rw [h_trims]
      simp
    · intro x hx
      simp [h_v x (List.mem_reverse.mp hx)]
  have h_without : withoutLatest (fun x => x.side == side) t.trims = u ++ v := by
    rw [h_trims]
    exact withoutLatest_eq he h_v
  have h_at : (t.spans.findIdx? fun x => x.start == e.segmentStart) = some a.length := by
    rw [h_spans]
    exact findIdx?_place h_a hs
  rw [detrim, h_find]
  simp only [h_without, h_at]
  rw [mark_place (t := { t with trims := u ++ v }) h_spans]

end Timeline

end ClipEdit
