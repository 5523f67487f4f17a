import ClipEdit.Proofs.Timeline.Tiling
import Mathlib.Data.List.Induction

/-!
# The log of trims and the trimmed ends

Trims are undone by history: the log names each trimmed span by its start and says at which end it
was trimmed, and `detrim` goes by the log alone. What is trimmed is a matter of position: the
trimmed spans are those before and those behind the ones that are shown. `Parted` ties the two
together. It cuts the spans into a trimmed `lead`, the `shown` spans and a trimmed `trail`, and says
that the log of either side, oldest trim first, lists the starts of that side's spans from the
outside to the inside:

* `Parted.firstActive?_eq`, `Parted.lastActive?_eq` — where the searches of the editor end;
* `Parted.cut`, `Parted.join`, `Parted.of_flags` — edits of what is shown leave the log right;
* `Parted.hide_first`, `Parted.hide_last`, `Parted.restore_start`, `Parted.restore_stop` — a trim
  moves one span over the seam between two parts, and the log follows;
* `Parted.trim_shown` — a trim that hides a span is one of the two moves to the outside;
* `Parted.trim`, `Parted.detrim` — so every trim, by position or by history, keeps the two in step.

An entry of the log is never mistaken for another one, since spans that tile the clip begin one
after the other (`Tiled.start_lt_start`).
-/

namespace ClipEdit

open Scalar Gauge

variable {α : Type}

/-- Where a span begins and whether it is trimmed: all that the log of trims is about. -/
def Span.flagged (s : Span α) : α × Bool := (s.start, s.isTrimmed)

section Flagged

variable {k k' : List (Span α)} {v : Bool}

theorem map_start_of_flagged (h : k'.map Span.flagged = k.map Span.flagged) :
    k'.map Span.start = k.map Span.start := by
  have h_fst := congrArg (List.map Prod.fst) h
  rw [List.map_map, List.map_map] at h_fst
  exact h_fst

theorem isTrimmed_of_flagged (h : k'.map Span.flagged = k.map Span.flagged)
    (hk : ∀ s ∈ k, s.isTrimmed = v) : ∀ s ∈ k', s.isTrimmed = v := by
  intro s hs
  have h_mem : s.flagged ∈ k.map Span.flagged := by
    rw [← h]
    exact List.mem_map_of_mem hs
  obtain ⟨s', hs', h_eq⟩ := List.mem_map.mp h_mem
  rw [← (Prod.mk.inj h_eq).2]
  exact hk s' hs'

end Flagged

namespace Timeline

/-! ### One side of the log -/

/-- The starts of the spans that were trimmed at a side, oldest trim first. -/
def logged (side : TrimSide) (trims : List (TrimEntry α)) : List α :=
  (trims.filter fun e => e.side == side).map TrimEntry.segmentStart

section Log

variable {side : TrimSide} {u v trims : List (TrimEntry α)} {e : TrimEntry α} {c : α} {xs : List α}

@[simp] theorem logged_nil : logged side ([] : List (TrimEntry α)) = [] := rfl

@[simp] theorem logged_append : logged side (u ++ v) = logged side u ++ logged side v := by
  rw [logged, List.filter_append, List.map_append]
  rfl

theorem logged_singleton_self : logged e.side [e] = [e.segmentStart] := by
  simp [logged]

theorem logged_singleton_of_ne (h : e.side ≠ side) : logged side [e] = [] := by
  simp [logged, h]

theorem mem_logged (h : e ∈ trims) : e.segmentStart ∈ logged e.side trims :=
  List.mem_map_of_mem (List.mem_filter.mpr ⟨h, by simp⟩)

theorem logged_eq_nil_iff :
    logged side trims = [] ↔ ∀ x ∈ trims, (x.side == side) = false := by
  simp [logged]

/-- The two sides make the whole log up. -/
theorem length_logged_add :
    (logged .start trims).length + (logged .stop trims).length = trims.length := by
  induction trims with
  | nil => rfl
  | cons e rest ih =>
    rcases e with ⟨_ | _, c⟩ <;> simp [logged] at ih ⊢ <;> omega

/-- The latest trim of a side is a place in the log with nothing of that side behind it. -/
theorem exists_latest (h : logged side trims = xs ++ [c]) :
    ∃ u v, trims = u ++ ⟨side, c⟩ :: v ∧ logged side u = xs ∧
      ∀ x ∈ v, (x.side == side) = false := by
  induction trims using List.reverseRecOn with
  | nil => simp at h
  | append_singleton trims e ih =>
    rw [logged_append] at h
    by_cases h_side : e.side = side
    · -- the last entry of the log is the one
      subst h_side
      rw [logged_singleton_self] at h
      obtain ⟨h_rest, h_last⟩ := List.append_inj' h rfl
      obtain rfl : e.segmentStart = c := by simpa using h_last
      exact ⟨trims, [], rfl, h_rest, by simp⟩
    · -- an entry of the other side lies behind it
      rw [logged_singleton_of_ne h_side, List.append_nil] at h
      obtain ⟨u, v, rfl, h_u, h_v⟩ := ih h
      refine ⟨u, v ++ [e], by simp, h_u, ?_⟩
      intro x hx
      rcases List.mem_append.mp hx with hx | hx
      · exact h_v x hx
      · obtain rfl : x = e := by simpa using hx
        simpa using h_side

/-- Taking the latest trim of a side out of the log shortens that side and leaves the other. -/
theorem logged_without (h_v : ∀ x ∈ v, (x.side == e.side) = false) (side : TrimSide) :
    logged side (u ++ e :: v)
      = if side = e.side then logged side (u ++ v) ++ [e.segmentStart]
        else logged side (u ++ v) := by
  rw [← List.singleton_append, logged_append, logged_append, logged_append]
  split
  · next h_side =>
    subst h_side
    rw [logged_eq_nil_iff.mpr h_v, logged_singleton_self]
    simp
  · next h_side =>
    rw [logged_singleton_of_ne (Ne.symm h_side), List.nil_append]

end Log

/-! ### The three parts of a timeline -/

/-- **A timeline in parts**: the spans trimmed at the start, those that are shown, and those trimmed
at the end. The log of either side runs from the outside to the inside. -/
structure Parted (t : Timeline α) (lead shown trail : List (Span α)) : Prop where
  spans_eq : t.spans = lead ++ (shown ++ trail)
  shown_ne_nil : shown ≠ []
  isTrimmed_lead : ∀ s ∈ lead, s.isTrimmed = true
  isTrimmed_shown : ∀ s ∈ shown, s.isTrimmed = false
  isTrimmed_trail : ∀ s ∈ trail, s.isTrimmed = true
  logged_start : logged .start t.trims = lead.map Span.start
  logged_stop : logged .stop t.trims = (trail.map Span.start).reverse

variable {t t' : Timeline α} {lead shown trail a b : List (Span α)} {s l r : Span α}

namespace Parted

/-- The spans that are shown are the middle part. -/
theorem activeSpans_eq (h : t.Parted lead shown trail) : t.activeSpans = shown := by
  have h_lead : lead.filter (fun s => !s.isTrimmed) = [] :=
    List.filter_eq_nil_iff.mpr fun s hs => by simp [h.isTrimmed_lead s hs]
  have h_trail : trail.filter (fun s => !s.isTrimmed) = [] :=
    List.filter_eq_nil_iff.mpr fun s hs => by simp [h.isTrimmed_trail s hs]
  have h_shown : shown.filter (fun s => !s.isTrimmed) = shown :=
    List.filter_eq_self.mpr fun s hs => by simp [h.isTrimmed_shown s hs]
  rw [activeSpans, h.spans_eq, List.filter_append, List.filter_append, h_lead, h_shown, h_trail,
    List.nil_append, List.append_nil]

theorem firstActive?_eq (h : t.Parted lead shown trail) : t.firstActive? = some lead.length := by
  obtain ⟨s, rest, rfl⟩ := List.exists_cons_of_ne_nil h.shown_ne_nil
  rw [firstActive?, h.spans_eq, List.cons_append]
  exact findIdx?_place (fun x hx => by simp [h.isTrimmed_lead x hx])
    (by simp [h.isTrimmed_shown s])

theorem lastActive?_eq (h : t.Parted lead shown trail) :
    t.lastActive? = some (lead.length + shown.length - 1) := by
  obtain ⟨rest, s, rfl⟩ := (List.eq_nil_or_concat' shown).resolve_left h.shown_ne_nil
  -- from the end, the search passes the trail and stops at the last span that is shown
  have h_rev : t.spans.reverse = trail.reverse ++ s :: (rest.reverse ++ lead.reverse) := by
    rw [h.spans_eq]
    simp
  have h_find : (t.spans.reverse.findIdx? fun s => !s.isTrimmed) = some trail.length := by
    rw [h_rev, findIdx?_place (fun x hx => by simp [h.isTrimmed_trail x (List.mem_reverse.mp hx)])
      (by simp [h.isTrimmed_shown s]), List.length_reverse]
  rw [lastActive?, h_find, h.spans_eq, Option.map_some]
  simp only [List.length_append, List.length_singleton, Option.some.injEq]
  omega

/-- A span that is shown lies in the middle part. -/
theorem exists_shown (h : t.Parted lead shown trail) (h_spans : t.spans = a ++ s :: b)
    (hs : s.isTrimmed = false) :
    ∃ m m', a = lead ++ m ∧ shown = m ++ s :: m' ∧ b = m' ++ trail := by
  have h_not_lead : s ∉ lead := fun h_mem => by
    rw [h.isTrimmed_lead s h_mem] at hs
    exact absurd hs (by simp)
  have h_not_trail : s ∉ trail := fun h_mem => by
    rw [h.isTrimmed_trail s h_mem] at hs
    exact absurd hs (by simp)
  have h_eq := h.spans_eq
  rw [h_spans, List.append_eq_append_iff] at h_eq
  rcases h_eq with ⟨m, rfl, h_rest⟩ | ⟨m, rfl, h_rest⟩
  · -- the span would begin before the first one that is shown
    cases m with
    | nil =>
      rw [List.nil_append] at h_rest
      rcases List.cons_eq_append_iff.mp h_rest with ⟨h_nil, -⟩ | ⟨m', h_shown, h_b⟩
      · exact absurd h_nil h.shown_ne_nil
      · exact ⟨[], m', by simp, h_shown, h_b⟩
    | cons x m =>
      obtain ⟨rfl, -⟩ := List.cons.inj h_rest
      exact absurd (by simp) h_not_lead
  · rw [List.append_eq_append_iff] at h_rest
    rcases h_rest with ⟨k, rfl, h_k⟩ | ⟨k, rfl, h_k⟩
    · -- the span would lie behind the last one that is shown
      refine absurd ?_ h_not_trail
      rw [h_k]
      simp
    · cases k with
      | nil =>
        refine absurd ?_ h_not_trail
        rw [← List.nil_append trail, ← h_k]
        simp
      | cons x k =>
        obtain ⟨rfl, h_b⟩ := List.cons.inj h_k
        exact ⟨m, k, rfl, rfl, h_b⟩

/-! ### Edits of what is shown -/

/-- Other spans in the middle part change nothing about the trimmed ends. -/
theorem of_shown {shown' : List (Span α)} (h : t.Parted lead shown trail)
    (h_ne : shown' ≠ []) (h_shown : ∀ s ∈ shown', s.isTrimmed = false) :
    ({ t with spans := lead ++ (shown' ++ trail) } : Timeline α).Parted lead shown' trail :=
  ⟨rfl, h_ne, h.isTrimmed_lead, h_shown, h.isTrimmed_trail, h.logged_start, h.logged_stop⟩

theorem cut (h : t.Parted lead shown trail) (h_spans : t.spans = a ++ s :: b)
    (hs : s.isTrimmed = false) (time : α) :
    ∃ shown', ({ t with spans := a ++ s.cut time ++ b } : Timeline α).Parted lead shown' trail := by
  obtain ⟨m, m', rfl, rfl, rfl⟩ := h.exists_shown h_spans hs
  have h_shown : ∀ x ∈ m ++ (s.cut time ++ m'), x.isTrimmed = false := by
    intro x hx
    have h_old := h.isTrimmed_shown x
    simp only [Span.cut, List.mem_append, List.mem_cons, List.not_mem_nil, or_false] at hx h_old
    rcases hx with hx | (rfl | rfl) | hx
    · exact h_old (Or.inl hx)
    · -- the half in front has the flag of the span, which is shown
      exact hs
    · rfl
    · exact h_old (Or.inr (Or.inr hx))
  have h_cut := h.of_shown (by simp [Span.cut]) h_shown
  exact ⟨_, by simpa using h_cut⟩

theorem join (h : t.Parted lead shown trail) (h_spans : t.spans = a ++ l :: r :: b)
    (hl : l.isTrimmed = false) (hr : r.isTrimmed = false) :
    ∃ shown', ({ t with spans := a ++ l.join t.mergePolicy r :: b } : Timeline α).Parted
      lead shown' trail := by
  obtain ⟨m, m', rfl, rfl, h_rest⟩ := h.exists_shown h_spans hl
  cases m' with
  | nil =>
    -- then the right span would be the first one of the trimmed end
    have h_mem : r ∈ trail := by
      rw [List.nil_append] at h_rest
      rw [← h_rest]
      exact List.mem_cons_self
    rw [h.isTrimmed_trail r h_mem] at hr
    exact absurd hr (by simp)
  | cons x m' =>
    obtain ⟨rfl, rfl⟩ := List.cons.inj h_rest
    have h_shown : ∀ x ∈ m ++ l.join t.mergePolicy r :: m', x.isTrimmed = false := by
      intro x hx
      rw [List.mem_append, List.mem_cons] at hx
      rcases hx with hx | rfl | hx
      · exact h.isTrimmed_shown x (List.mem_append_left _ hx)
      · exact hl
      · exact h.isTrimmed_shown x (by simp [hx])
    have h_join := h.of_shown (by simp) h_shown
    exact ⟨_, by simpa using h_join⟩

/-- Speeds and stops do not matter. -/
theorem of_flags (h : t.Parted lead shown trail) (h_trims : t'.trims = t.trims)
    (h_spans : t'.spans.map Span.flagged = t.spans.map Span.flagged) :
    ∃ lead' shown' trail', t'.Parted lead' shown' trail' := by
  rw [h.spans_eq, List.map_append, List.map_append, List.map_eq_append_iff] at h_spans
  obtain ⟨lead', rest, h_eq, h_lead, h_rest⟩ := h_spans
  obtain ⟨shown', trail', rfl, h_shown, h_trail⟩ := List.map_eq_append_iff.mp h_rest
  refine ⟨lead', shown', trail', h_eq, ?_, isTrimmed_of_flagged h_lead h.isTrimmed_lead,
    isTrimmed_of_flagged h_shown h.isTrimmed_shown,
    isTrimmed_of_flagged h_trail h.isTrimmed_trail, ?_, ?_⟩
  · rintro rfl
    exact h.shown_ne_nil (List.map_eq_nil_iff.mp h_shown.symm)
  · rw [h_trims, h.logged_start, map_start_of_flagged h_lead]
  · rw [h_trims, h.logged_stop, map_start_of_flagged h_trail]

/-! ### Trims move a seam -/

/-- The first span that is shown goes over to the trimmed spans before it. -/
theorem hide_first (h : t.Parted lead (s :: shown) trail) (h_ne : shown ≠ []) :
    ({ t with
      spans := lead ++ { s with isTrimmed := true } :: (shown ++ trail)
      trims := t.trims ++ [⟨.start, s.start⟩] } : Timeline α).Parted
      (lead ++ [{ s with isTrimmed := true }]) shown trail := by
  refine ⟨by simp, h_ne, ?_, ?_, h.isTrimmed_trail, ?_, ?_⟩
  · intro x hx
    rcases List.mem_append.mp hx with hx | hx
    · exact h.isTrimmed_lead x hx
    · obtain rfl := List.mem_singleton.mp hx
      rfl
  · intro x hx
    exact h.isTrimmed_shown x (List.mem_cons_of_mem _ hx)
  · -- the new entry is the latest, and the span is the innermost
    rw [logged_append, h.logged_start, logged_singleton_self (e := ⟨.start, s.start⟩)]
    simp
  · rw [logged_append, h.logged_stop, logged_singleton_of_ne (by simp), List.append_nil]

/-- The last span that is shown goes over to the trimmed spans behind it. -/
theorem hide_last (h : t.Parted lead (shown ++ [s]) trail) (h_ne : shown ≠ []) :
    ({ t with
      spans := lead ++ (shown ++ { s with isTrimmed := true } :: trail)
      trims := t.trims ++ [⟨.stop, s.start⟩] } : Timeline α).Parted
      lead shown ({ s with isTrimmed := true } :: trail) := by
  -- the span goes over to the trail, and the new entry of the log is for its side
  refine ⟨rfl, h_ne, h.isTrimmed_lead, ?_, ?_, ?_, ?_⟩
  · intro x hx
    exact h.isTrimmed_shown x (List.mem_append_left _ hx)
  · intro x hx
    rcases List.mem_cons.mp hx with rfl | hx
    · rfl
    · exact h.isTrimmed_trail x hx
  · rw [logged_append, h.logged_start, logged_singleton_of_ne (by simp), List.append_nil]
  · rw [logged_append, h.logged_stop, logged_singleton_self (e := ⟨.stop, s.start⟩)]
    simp

variable {u v : List (TrimEntry α)} {e : TrimEntry α}

/-- The innermost span of the trimmed start is shown again. -/
theorem restore_start (h : t.Parted (lead ++ [s]) shown trail)
    (h_log : t.trims = u ++ ⟨.start, s.start⟩ :: v) (h_v : ∀ x ∈ v, (x.side == .start) = false) :
    ({ t with
      spans := lead ++ { s with isTrimmed := false } :: (shown ++ trail)
      trims := u ++ v } : Timeline α).Parted
      lead ({ s with isTrimmed := false } :: shown) trail := by
  -- the log of the start gets shorter by one, the log of the end stays
  have h_without := logged_without (u := u) (e := ⟨.start, s.start⟩) h_v
  have h_start := h_without .start
  have h_stop := h_without .stop
  rw [← h_log, if_pos rfl, h.logged_start, List.map_append] at h_start
  rw [← h_log, if_neg (by simp), h.logged_stop] at h_stop
  refine ⟨rfl, by simp, ?_, ?_, h.isTrimmed_trail, ?_, h_stop.symm⟩
  · intro x hx
    exact h.isTrimmed_lead x (List.mem_append_left _ hx)
  · intro x hx
    rcases List.mem_cons.mp hx with rfl | hx
    · rfl
    · exact h.isTrimmed_shown x hx
  · exact (List.append_inj_left' h_start rfl).symm

/-- The innermost span of the trimmed end is shown again. -/
theorem restore_stop (h : t.Parted lead shown (s :: trail))
    (h_log : t.trims = u ++ ⟨.stop, s.start⟩ :: v) (h_v : ∀ x ∈ v, (x.side == .stop) = false) :
    ({ t with
      spans := lead ++ (shown ++ { s with isTrimmed := false } :: trail)
      trims := u ++ v } : Timeline α).Parted
      lead (shown ++ [{ s with isTrimmed := false }]) trail := by
  -- the log of the end gets shorter by one, the log of the start stays
  have h_without := logged_without (u := u) (e := ⟨.stop, s.start⟩) h_v
  have h_start := h_without .start
  have h_stop := h_without .stop
  rw [← h_log, if_neg (by simp), h.logged_start] at h_start
  rw [← h_log, if_pos rfl, h.logged_stop, List.map_cons, List.reverse_cons] at h_stop
  refine ⟨by simp, by simp, h.isTrimmed_lead, ?_, ?_, h_start.symm, ?_⟩
  · intro x hx
    rcases List.mem_append.mp hx with hx | hx
    · exact h.isTrimmed_shown x hx
    · obtain rfl := List.mem_singleton.mp hx
      rfl
  · intro x hx
    exact h.isTrimmed_trail x (List.mem_cons_of_mem _ hx)
  · exact (List.append_inj_left' h_stop rfl).symm

end Parted

/-! ### Spans are told apart by their starts -/

section Editor

variable [Scalar α] [Gauge α] {side : TrimSide} {u v : List (TrimEntry α)}

/-- Spans that tile the clip begin one after the other. -/
theorem Tiled.start_lt_start (h : t.Tiled) {m : List (Span α)} {s' : Span α}
    (h_spans : t.spans = a ++ s :: m ++ s' :: b) : s.start < s'.start := by
  have h_pairwise := h.tiles.pairwise_start_lt
  rw [h_spans, List.pairwise_append] at h_pairwise
  exact h_pairwise.2.2 s (by simp) s' List.mem_cons_self

theorem Tiled.start_beq_self (h : t.Tiled) (hs : s ∈ t.spans) : (s.start == s.start) = true :=
  Gauge.beq_self (isNumber_left_of_lt (h.tiles.start_lt_stop s hs))

/-- Taking back a trim whose entry names a span shows that very span. -/
theorem Tiled.detrim_eq_accept (h : t.Tiled) (h_spans : t.spans = a ++ s :: b)
    (h_log : t.trims = u ++ ⟨side, s.start⟩ :: v) (h_v : ∀ x ∈ v, (x.side == side) = false) :
    t.detrim side = .accept { t with
      spans := a ++ { s with isTrimmed := false } :: b
      trims := u ++ v } := by
  refine Timeline.detrim_eq_accept h_spans h_log (by simp) h_v ?_ ?_
  · exact h.start_beq_self (by rw [h_spans]; simp)
  · intro x hx
    obtain ⟨k, m, rfl⟩ := List.append_of_mem hx
    exact Gauge.beq_eq_false_of_lt (h.start_lt_start h_spans)

namespace Parted

/-- **The latest trim of the start is taken back**: its innermost span is shown again. -/
theorem detrim_start (h : t.Parted (lead ++ [s]) shown trail) (h_tiled : t.Tiled) :
    ∃ u v, t.trims = u ++ ⟨.start, s.start⟩ :: v ∧ (∀ x ∈ v, (x.side == .start) = false) ∧
      t.detrim .start = .accept { t with
        spans := lead ++ { s with isTrimmed := false } :: (shown ++ trail)
        trims := u ++ v } := by
  have h_start := h.logged_start
  rw [List.map_append] at h_start
  obtain ⟨u, v, h_log, -, h_v⟩ := exists_latest h_start
  exact ⟨u, v, h_log, h_v, h_tiled.detrim_eq_accept (by simpa using h.spans_eq) h_log h_v⟩

/-- **The latest trim of the end is taken back**: its innermost span is shown again. -/
theorem detrim_stop (h : t.Parted lead shown (s :: trail)) (h_tiled : t.Tiled) :
    ∃ u v, t.trims = u ++ ⟨.stop, s.start⟩ :: v ∧ (∀ x ∈ v, (x.side == .stop) = false) ∧
      t.detrim .stop = .accept { t with
        spans := lead ++ (shown ++ { s with isTrimmed := false } :: trail)
        trims := u ++ v } := by
  have h_stop := h.logged_stop
  rw [List.map_cons, List.reverse_cons] at h_stop
  obtain ⟨u, v, h_log, -, h_v⟩ := exists_latest h_stop
  refine ⟨u, v, h_log, h_v, ?_⟩
  rw [← List.append_assoc]
  exact h_tiled.detrim_eq_accept (by simpa using h.spans_eq) h_log h_v

omit [Gauge α] in
theorem detrim_start_nil (h : t.Parted [] shown trail) : t.detrim .start = .refuse t :=
  detrim_eq_refuse (logged_eq_nil_iff.mp h.logged_start)

omit [Gauge α] in
theorem detrim_stop_nil (h : t.Parted lead shown []) : t.detrim .stop = .refuse t :=
  detrim_eq_refuse (logged_eq_nil_iff.mp h.logged_stop)

omit [Gauge α] in
/-- What is shown tiles the range that the trims leave. -/
theorem tiles_shown (h : t.Parted lead shown trail) (h_tiled : t.Tiled) :
    Tiles t.trimRange.start shown t.trimRange.stop := by
  have h_tiles := h_tiled.tiles
  rw [h.spans_eq, tiles_append] at h_tiles
  obtain ⟨lo, -, h_tiles⟩ := h_tiles
  obtain ⟨hi, h_shown, -⟩ := tiles_append.mp h_tiles
  obtain ⟨first, h_first, rfl⟩ :=
    Option.map_eq_some_iff.mp (h_shown.head?_start h.shown_ne_nil)
  obtain ⟨last, h_last, rfl⟩ :=
    Option.map_eq_some_iff.mp (h_shown.getLast?_stop h.shown_ne_nil)
  have h_range : t.trimRange = ⟨first.start, last.stop⟩ := by
    rw [trimRange, h.activeSpans_eq, h_first, h_last]
  rwa [h_range]

/-! ### Trimming by position -/

omit [Scalar α] [Gauge α] in
/-- A span that may be trimmed is the first or the last one that is shown, and not the only one. -/
theorem canTrim_cases (h : t.Parted lead shown trail) (h_spans : t.spans = a ++ s :: b)
    (hs : s.isTrimmed = false) (h_can : t.canTrim a.length = true) :
    (∃ rest, shown = s :: rest ∧ rest ≠ [] ∧ a = lead ∧ b = rest ++ trail) ∨
      ∃ rest, shown = rest ++ [s] ∧ rest ≠ [] ∧ a = lead ++ rest ∧ b = trail := by
  obtain ⟨m, m', rfl, rfl, rfl⟩ := h.exists_shown h_spans hs
  have h_get : t.spans[(lead ++ m).length]? = some s := by
    rw [h_spans, List.getElem?_append_right (le_refl _)]
    simp
  rw [canTrim, h_get, h.firstActive?_eq, h.lastActive?_eq, activeCount, h.activeSpans_eq] at h_can
  simp only [Bool.and_eq_true, decide_eq_true_eq, Bool.or_eq_true, beq_iff_eq,
    Option.some.injEq, List.length_append, List.length_cons] at h_can
  obtain ⟨⟨-, h_count⟩, h_first | h_last⟩ := h_can
  · -- nothing that is shown lies before the first position, so the span comes first
    obtain rfl : m = [] := List.length_eq_zero_iff.mp (by omega)
    refine Or.inl ⟨m', rfl, ?_, List.append_nil _, rfl⟩
    rintro rfl
    exact absurd h_count (by simp)
  · obtain rfl : m' = [] := List.length_eq_zero_iff.mp (by omega)
    refine Or.inr ⟨m, rfl, ?_, rfl, rfl⟩
    rintro rfl
    exact absurd h_count (by simp)

omit [Scalar α] [Gauge α] in
/-- The positions next to the spans that are shown are the inner ends of the trimmed parts. -/
theorem isInnermost_cases (h : t.Parted lead shown trail) (h_spans : t.spans = a ++ s :: b)
    (h_inner : t.isInnermost a.length = true) :
    (lead = a ++ [s] ∧ b = shown ++ trail) ∨ (a = lead ++ shown ∧ trail = s :: b) := by
  have h_eq := h.spans_eq
  have h_pos := List.length_pos_of_ne_nil h.shown_ne_nil
  rw [h_spans] at h_eq
  rw [isInnermost, h.firstActive?_eq, h.lastActive?_eq] at h_inner
  simp only [Bool.or_eq_true, beq_iff_eq] at h_inner
  rcases h_inner with h_first | h_last
  · -- one position before the first span that is shown
    rw [← List.singleton_append, ← List.append_assoc] at h_eq
    obtain ⟨h_lead, h_b⟩ := List.append_inj h_eq (by simpa using h_first)
    exact Or.inl ⟨h_lead.symm, h_b⟩
  · -- one position behind the last one
    rw [← List.append_assoc] at h_eq
    obtain ⟨h_a, h_trail⟩ := List.append_inj h_eq (by rw [List.length_append]; omega)
    exact Or.inr ⟨h_a, h_trail.symm⟩

/-- What the start was trimmed of begins before what the end was trimmed of. -/
theorem logged_lt (h : t.Parted lead shown trail) (h_tiled : t.Tiled) {c c' : α}
    (hc : c ∈ logged .start t.trims) (hc' : c' ∈ logged .stop t.trims) : c < c' := by
  rw [h.logged_start, List.mem_map] at hc
  rw [h.logged_stop, List.mem_reverse, List.mem_map] at hc'
  obtain ⟨s, hs, rfl⟩ := hc
  obtain ⟨s', hs', rfl⟩ := hc'
  obtain ⟨k, k', rfl⟩ := List.append_of_mem hs
  obtain ⟨m, m', rfl⟩ := List.append_of_mem hs'
  refine h_tiled.start_lt_start (a := k) (m := k' ++ (shown ++ m)) (b := m') ?_
  rw [h.spans_eq]
  simp

/-- **The two ways to take a trim back agree on the log.** The latest entry of a side is also the
latest one that names its span, since behind it the log only holds entries of the other side. -/
theorem withoutLatest_eq (h : t.Parted lead shown trail) (h_tiled : t.Tiled) (hs : s ∈ t.spans)
    (h_log : t.trims = u ++ ⟨side, s.start⟩ :: v) (h_v : ∀ x ∈ v, (x.side == side) = false) :
    withoutLatest (fun e => e.segmentStart == s.start) t.trims = u ++ v := by
  have h_self : s.start ∈ logged side t.trims :=
    mem_logged (e := ⟨side, s.start⟩) (by rw [h_log]; simp)
  rw [h_log]
  refine Timeline.withoutLatest_eq (h_tiled.start_beq_self hs) ?_
  intro x hx
  have h_other : x.segmentStart ∈ logged x.side t.trims := mem_logged (by rw [h_log]; simp [hx])
  -- an entry behind it is of the other side, and the sides have no start in common
  have h_side := h_v x hx
  rcases x with ⟨_ | _, c⟩ <;> cases side
  · simp at h_side
  · exact Gauge.beq_eq_false_of_lt (h.logged_lt h_tiled h_other h_self)
  · exact Gauge.beq_eq_false_of_gt (h.logged_lt h_tiled h_self h_other)
  · simp at h_side

omit [Gauge α] in
/-- **A trim of a span that is shown** moves it over one of the two seams, and the log names the side
of that seam. -/
theorem trim_shown (h : t.Parted lead shown trail) {index : Nat} (h_get : t.spans[index]? = some s)
    (hs : s.isTrimmed = false) (h_accepted : (t.trim index).accepted = true) :
    (∃ rest, shown = s :: rest ∧ rest ≠ [] ∧ index = lead.length ∧
        t.trim index = .accept { t with
          spans := lead ++ { s with isTrimmed := true } :: (rest ++ trail)
          trims := t.trims ++ [⟨.start, s.start⟩] }) ∨
      ∃ rest, shown = rest ++ [s] ∧ rest ≠ [] ∧ index = (lead ++ rest).length ∧
        t.trim index = .accept { t with
          spans := lead ++ (rest ++ { s with isTrimmed := true } :: trail)
          trims := t.trims ++ [⟨.stop, s.start⟩] } := by
  obtain ⟨a, b, h_spans, rfl⟩ := exists_place_of_getElem? h_get
  have h_first := h.firstActive?_eq
  rcases t.trim_cases a.length with h_eq | ⟨a', s', b', h_spans', h_len, -, h_can, h_eq⟩
    | ⟨a', s', b', h_spans', h_len, hs', -, -⟩
  · rw [h_eq] at h_accepted
    exact absurd h_accepted (by simp)
  · obtain ⟨rfl, h_rest⟩ := List.append_inj (h_spans'.symm.trans h_spans) h_len
    obtain ⟨rfl, rfl⟩ := List.cons.inj h_rest
    rcases h.canTrim_cases h_spans hs h_can with ⟨rest, rfl, h_ne, rfl, rfl⟩
      | ⟨rest, rfl, h_ne, rfl, rfl⟩
    · -- the first span that is shown is logged for the start
      rw [h_first, if_pos (by simp)] at h_eq
      exact Or.inl ⟨rest, rfl, h_ne, rfl, h_eq⟩
    · -- any other one for the end
      have h_pos := List.length_pos_of_ne_nil h_ne
      rw [h_first, if_neg (by simpa using h_ne), List.append_assoc] at h_eq
      exact Or.inr ⟨rest, rfl, h_ne, rfl, h_eq⟩
  · -- the span at the place is shown
    obtain ⟨-, h_rest⟩ := List.append_inj (h_spans'.symm.trans h_spans) h_len
    obtain ⟨rfl, -⟩ := List.cons.inj h_rest
    exact absurd hs' (by simp [hs])

/-- **A trim keeps the log and the trimmed ends in step**, whether it hides a span or brings one
back. -/
theorem trim (h : t.Parted lead shown trail) (h_tiled : t.Tiled) (index : Nat) :
    ∃ lead' shown' trail', (t.trim index).state.Parted lead' shown' trail' := by
  rcases t.trim_cases index with h_eq | ⟨a, s, b, h_spans, rfl, hs, -, h_eq⟩
    | ⟨a, s, b, h_spans, rfl, -, h_inner, h_eq⟩
  · exact ⟨lead, shown, trail, by rw [h_eq]; exact h⟩
  · -- a span is hidden
    have h_get : t.spans[a.length]? = some s := by simp [h_spans]
    rcases h.trim_shown h_get hs (by rw [h_eq]; rfl) with
      ⟨rest, rfl, h_ne, -, h_eq⟩ | ⟨rest, rfl, h_ne, -, h_eq⟩
    · rw [h_eq]
      exact ⟨_, _, _, h.hide_first h_ne⟩
    · rw [h_eq]
      exact ⟨_, _, _, h.hide_last h_ne⟩
  · -- a span is brought back: the log loses the entry that `detrim` would take
    have h_mem : s ∈ t.spans := by rw [h_spans]; simp
    rcases h.isInnermost_cases h_spans h_inner with ⟨rfl, rfl⟩ | ⟨rfl, rfl⟩
    · obtain ⟨u, v, h_log, h_v, -⟩ := h.detrim_start h_tiled
      rw [h_eq, h.withoutLatest_eq h_tiled h_mem h_log h_v]
      exact ⟨_, _, _, h.restore_start h_log h_v⟩
    · obtain ⟨u, v, h_log, h_v, -⟩ := h.detrim_stop h_tiled
      rw [h_eq, h.withoutLatest_eq h_tiled h_mem h_log h_v, List.append_assoc]
      exact ⟨_, _, _, h.restore_stop h_log h_v⟩

/-- **Taking a trim back keeps the log and the trimmed ends in step.** -/
theorem detrim (h : t.Parted lead shown trail) (h_tiled : t.Tiled) (side : TrimSide) :
    ∃ lead' shown' trail', (t.detrim side).state.Parted lead' shown' trail' := by
  cases side with
  | start =>
    -- the innermost trimmed span is the last one of the lead
    rcases List.eq_nil_or_concat' lead with rfl | ⟨lead, s, rfl⟩
    · exact ⟨_, _, _, by rw [h.detrim_start_nil]; exact h⟩
    · obtain ⟨u, v, h_log, h_v, h_eq⟩ := h.detrim_start h_tiled
      rw [h_eq]
      exact ⟨_, _, _, h.restore_start h_log h_v⟩
  | stop =>
    -- and the first one of the trail
    cases trail with
    | nil => exact ⟨_, _, _, by rw [h.detrim_stop_nil]; exact h⟩
    | cons s trail =>
      obtain ⟨u, v, h_log, h_v, h_eq⟩ := h.detrim_stop h_tiled
      rw [h_eq]
      exact ⟨_, _, _, h.restore_stop h_log h_v⟩

end Parted

end Editor

end Timeline

end ClipEdit
