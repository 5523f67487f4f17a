import ClipEdit.Proofs.Timeline.Reachable
import ClipEdit.Timeline.TimeMap
import Mathlib.Order.Interval.Set.Basic
import Mathlib.Tactic.FieldSimp

/-!
# The two clocks of a clip

Both directions of a `TimeMap` are scans over its pieces, and the two scans decide differently which
piece a time at a seam belongs to. The proofs therefore do not compare the scans with each other but
with the graph they both run along: `Shows pieces s v` says that some piece shows the source time
`s` at the visual time `v`. For pieces that are laid end to end on both clocks (`Laid`), the graph
rises strictly (`Laid.aligned`), so a time on one clock has at most one counterpart on the other:

* `Laid.shows_scanSource`, `Laid.shows_find?` — between its ends, each scan finds a counterpart;
* `Covers.toVisual_of_shows`, `Covers.toSource_of_shows` — so a point of the graph decides what both
  directions answer there;
* `Sound.laid` — the map of a sound timeline is laid, from the start of `trimRange` to its stop;
* `toSource_toVisual_inverse` — the two directions undo each other;
* `toVisual_toSource_monotone` — both rise strictly between their ends and stand still outside.

Everything here is about exact arithmetic.
-/

namespace ClipEdit

open Scalar

/-! ### Points on two clocks -/

/-- Two points lie in the same order on both clocks. -/
def Aligned (s v s' v' : ℚ) : Prop :=
  (s < s' ∧ v < v') ∨ (s = s' ∧ v = v') ∨ (s' < s ∧ v' < v)

namespace Aligned

variable {s v s' v' m n : ℚ}

theorem symm (h : Aligned s v s' v') : Aligned s' v' s v := by
  rcases h with h | ⟨rfl, rfl⟩ | h
  · exact Or.inr (Or.inr h)
  · exact Or.inr (Or.inl ⟨rfl, rfl⟩)
  · exact Or.inl h

theorem lt_iff (h : Aligned s v s' v') : s < s' ↔ v < v' := by
  rcases h with ⟨h, h'⟩ | ⟨rfl, rfl⟩ | ⟨h, h'⟩
  · exact iff_of_true h h'
  · exact iff_of_false (lt_irrefl s) (lt_irrefl v)
  · exact iff_of_false h.not_gt h'.not_gt

theorem le_iff (h : Aligned s v s' v') : s ≤ s' ↔ v ≤ v' := by
  rw [← not_lt, ← not_lt, h.symm.lt_iff]

theorem eq_iff (h : Aligned s v s' v') : s = s' ↔ v = v' := by
  rw [le_antisymm_iff, le_antisymm_iff, h.le_iff, h.symm.le_iff]

/-- Points on two sides of a third one. -/
theorem trans (h : Aligned s v m n) (h' : Aligned m n s' v') (h_le : s ≤ m) (h_le' : m ≤ s') :
    Aligned s v s' v' := by
  have h_v := h.le_iff.mp h_le
  have h_v' := h'.le_iff.mp h_le'
  rcases h with ⟨h_lt, h_lt'⟩ | ⟨rfl, rfl⟩ | ⟨h_gt, -⟩
  · exact Or.inl ⟨lt_of_lt_of_le h_lt h_le', lt_of_lt_of_le h_lt' h_v'⟩
  · exact h'
  · exact absurd h_gt (not_lt.mpr h_le)

end Aligned

namespace Piece

/-- The piece shows the source time `s` at the visual time `v`. -/
def Shows (p : Piece ℚ) (s v : ℚ) : Prop :=
  p.sourceStart ≤ s ∧ s ≤ p.sourceStop ∧ v = p.visualStart + (s - p.sourceStart) / p.speed

/-- A piece that is longer than nothing, played at a positive speed. -/
structure Proper (p : Piece ℚ) : Prop where
  start_lt_stop : p.sourceStart < p.sourceStop
  zero_lt_speed : 0 < p.speed
  visualStop_eq : p.visualStop = p.visualStart + (p.sourceStop - p.sourceStart) / p.speed

namespace Proper

variable {p : Piece ℚ} {s v s' v' : ℚ}

theorem shows_start (h : p.Proper) : p.Shows p.sourceStart p.visualStart :=
  ⟨le_refl _, h.start_lt_stop.le, by simp⟩

theorem shows_stop (h : p.Proper) : p.Shows p.sourceStop p.visualStop :=
  ⟨h.start_lt_stop.le, le_refl _, h.visualStop_eq⟩

theorem aligned (h : p.Proper) (hs : p.Shows s v) (hs' : p.Shows s' v') : Aligned s v s' v' := by
  obtain ⟨-, -, rfl⟩ := hs
  obtain ⟨-, -, rfl⟩ := hs'
  have h_mono {x y : ℚ} (h_lt : x < y) : p.visualStart + (x - p.sourceStart) / p.speed
      < p.visualStart + (y - p.sourceStart) / p.speed := by
    have h_div := div_lt_div_of_pos_right (sub_lt_sub_right h_lt p.sourceStart) h.zero_lt_speed
    linarith
  rcases lt_trichotomy s s' with h_lt | rfl | h_gt
  · exact Or.inl ⟨h_lt, h_mono h_lt⟩
  · exact Or.inr (Or.inl ⟨rfl, rfl⟩)
  · exact Or.inr (Or.inr ⟨h_gt, h_mono h_gt⟩)

/-- It is longer than nothing on the visual clock, too. -/
theorem visual_lt (h : p.Proper) : p.visualStart < p.visualStop :=
  (h.aligned h.shows_start h.shows_stop).lt_iff.mp h.start_lt_stop

/-- What a piece shows at a visual time of its own. -/
theorem shows_at (h : p.Proper) (h_start : p.visualStart ≤ v) (h_stop : v ≤ p.visualStop) :
    p.Shows (p.sourceStart + (v - p.visualStart) * p.speed) v := by
  have h_speed := h.zero_lt_speed
  have h_low := mul_nonneg (sub_nonneg.mpr h_start) h_speed.le
  -- what is left of the visual time, at full speed, fits into what is left of the source
  have h_high : (v - p.visualStart) * p.speed ≤ p.sourceStop - p.sourceStart := by
    rw [← le_div_iff₀ h_speed]
    linarith [h.visualStop_eq]
  refine ⟨by linarith, by linarith, ?_⟩
  field_simp
  ring

end Proper

end Piece

/-! ### Pieces laid end to end -/

/-- Pieces that lie end to end on both clocks, from source time `a` and visual time `c` to source
time `b` and visual time `e`. -/
def Laid : ℚ → ℚ → List (Piece ℚ) → ℚ → ℚ → Prop
  | a, c, [], b, e => a = b ∧ c = e
  | a, c, p :: rest, b, e =>
      p.Proper ∧ p.sourceStart = a ∧ p.visualStart = c ∧ Laid p.sourceStop p.visualStop rest b e

/-- Some piece shows the source time `s` at the visual time `v`. -/
def Shows (pieces : List (Piece ℚ)) (s v : ℚ) : Prop := ∃ p ∈ pieces, p.Shows s v

namespace Laid

variable {a b c e s v s' v' x : ℚ} {pieces : List (Piece ℚ)}

theorem proper (h : Laid a c pieces b e) : ∀ p ∈ pieces, p.Proper := by
  induction pieces generalizing a c with
  | nil => exact fun p hp => absurd hp (by simp)
  | cons q rest ih =>
    obtain ⟨h_proper, -, -, h_rest⟩ := h
    intro p hp
    rcases List.mem_cons.mp hp with rfl | hp
    · exact h_proper
    · exact ih h_rest p hp

theorem shows_start (h : Laid a c pieces b e) (h_ne : pieces ≠ []) : Shows pieces a c := by
  obtain ⟨p, rest, rfl⟩ := List.exists_cons_of_ne_nil h_ne
  obtain ⟨h_proper, rfl, rfl, -⟩ := h
  exact ⟨p, List.mem_cons_self, h_proper.shows_start⟩

theorem shows_stop (h : Laid a c pieces b e) (h_ne : pieces ≠ []) : Shows pieces b e := by
  induction pieces generalizing a c with
  | nil => exact absurd rfl h_ne
  | cons p rest ih =>
    obtain ⟨h_proper, -, -, h_rest⟩ := h
    cases rest with
    | nil =>
      obtain ⟨rfl, rfl⟩ := h_rest
      exact ⟨p, List.mem_cons_self, h_proper.shows_stop⟩
    | cons p' rest =>
      obtain ⟨q, hq, h_q⟩ := ih h_rest (by simp)
      exact ⟨q, List.mem_cons_of_mem _ hq, h_q⟩

theorem start_le_stop (h : Laid a c pieces b e) : a ≤ b := by
  induction pieces generalizing a c with
  | nil => exact h.1.le
  | cons p rest ih =>
    obtain ⟨h_proper, rfl, -, h_rest⟩ := h
    exact h_proper.start_lt_stop.le.trans (ih h_rest)

theorem visual_le (h : Laid a c pieces b e) : c ≤ e := by
  induction pieces generalizing a c with
  | nil => exact h.2.le
  | cons p rest ih =>
    obtain ⟨h_proper, -, rfl, h_rest⟩ := h
    exact h_proper.visual_lt.le.trans (ih h_rest)

/-- Only source times between the two ends are shown. -/
theorem source_mem (h : Laid a c pieces b e) (hs : Shows pieces s v) : a ≤ s ∧ s ≤ b := by
  induction pieces generalizing a c with
  | nil =>
    obtain ⟨p, hp, -⟩ := hs
    exact absurd hp (by simp)
  | cons p rest ih =>
    obtain ⟨h_proper, rfl, -, h_rest⟩ := h
    obtain ⟨q, hq, h_q⟩ := hs
    rcases List.mem_cons.mp hq with rfl | hq
    · exact ⟨h_q.1, h_q.2.1.trans h_rest.start_le_stop⟩
    · obtain ⟨h_low, h_high⟩ := ih h_rest ⟨q, hq, h_q⟩
      exact ⟨h_proper.start_lt_stop.le.trans h_low, h_high⟩

/-- **The graph rises strictly.** Two points of it lie in the same order on both clocks. Where they
belong to different pieces, the end of the piece in front lies between them. -/
theorem aligned (h : Laid a c pieces b e) (hs : Shows pieces s v) (hs' : Shows pieces s' v') :
    Aligned s v s' v' := by
  induction pieces generalizing a c s v s' v' with
  | nil =>
    obtain ⟨p, hp, -⟩ := hs
    exact absurd hp (by simp)
  | cons p rest ih =>
    obtain ⟨h_proper, -, -, h_rest⟩ := h
    -- the rest begins where `p` ends, so that point belongs to both
    have h_across {x y x' y' : ℚ} (hx : p.Shows x y) (hx' : Shows rest x' y') :
        Aligned x y x' y' := by
      have h_ne : rest ≠ [] := List.ne_nil_of_mem hx'.choose_spec.1
      exact (h_proper.aligned hx h_proper.shows_stop).trans
        (ih h_rest (h_rest.shows_start h_ne) hx') hx.2.1 (h_rest.source_mem hx').1
    obtain ⟨q, h_mem, h_q⟩ := hs
    obtain ⟨q', h_mem', h_q'⟩ := hs'
    rcases List.mem_cons.mp h_mem with rfl | hq <;> rcases List.mem_cons.mp h_mem' with rfl | hq'
    · exact h_proper.aligned h_q h_q'
    · exact h_across h_q ⟨q', hq', h_q'⟩
    · exact (h_across h_q' ⟨q, hq, h_q⟩).symm
    · exact ih h_rest ⟨q, hq, h_q⟩ ⟨q', hq', h_q'⟩

/-- Only visual times between the two ends are used. -/
theorem visual_mem (h : Laid a c pieces b e) (hs : Shows pieces s v) : c ≤ v ∧ v ≤ e := by
  have h_ne : pieces ≠ [] := List.ne_nil_of_mem hs.choose_spec.1
  obtain ⟨h_low, h_high⟩ := h.source_mem hs
  exact ⟨(h.aligned (h.shows_start h_ne) hs).le_iff.mp h_low,
    (h.aligned hs (h.shows_stop h_ne)).le_iff.mp h_high⟩

/-! ### The two scans -/

theorem scanSource_of_lt (h : Laid a c pieces b e) (h_s : s < a) :
    TimeMap.scanSource s e pieces = c := by
  cases pieces with
  | nil => exact h.2.symm
  | cons p rest =>
    obtain ⟨-, rfl, rfl, -⟩ := h
    exact if_pos h_s

theorem scanSource_of_gt (h : Laid a c pieces b e) (h_s : b < s) :
    TimeMap.scanSource s x pieces = x := by
  induction pieces generalizing a c with
  | nil => rfl
  | cons p rest ih =>
    obtain ⟨h_proper, rfl, -, h_rest⟩ := h
    have h_stop := h_rest.start_le_stop.trans_lt h_s
    rw [TimeMap.scanSource, if_neg (h_proper.start_lt_stop.trans h_stop).not_gt,
      if_neg (not_le.mpr h_stop)]
    exact ih h_rest

/-- **The scan for a source time finds a point of the graph.** -/
theorem shows_scanSource (h : Laid a c pieces b e) (h_ne : pieces ≠ []) (h_low : a ≤ s)
    (h_high : s ≤ b) : Shows pieces s (TimeMap.scanSource s x pieces) := by
  induction pieces generalizing a c with
  | nil => exact absurd rfl h_ne
  | cons p rest ih =>
    obtain ⟨h_proper, rfl, -, h_rest⟩ := h
    rw [TimeMap.scanSource, if_neg (not_lt.mpr h_low)]
    by_cases h_in : s ≤ p.sourceStop
    · rw [if_pos h_in]
      exact ⟨p, List.mem_cons_self, h_low, h_in, rfl⟩
    · -- behind this piece there must be another one, which begins at its stop
      rw [if_neg h_in]
      have h_rest_ne : rest ≠ [] := by
        rintro rfl
        exact h_in (h_high.trans h_rest.1.ge)
      obtain ⟨q, hq, h_q⟩ := ih h_rest h_rest_ne (le_of_not_ge h_in)
      exact ⟨q, List.mem_cons_of_mem _ hq, h_q⟩

/-- **So does the search for a visual time.** The first piece that does not end too early has not
begun too late, since it begins where the piece before it ends. -/
theorem shows_find? (h : Laid a c pieces b e) (h_ne : pieces ≠ []) (h_low : c ≤ v)
    (h_high : v ≤ e) :
    ∃ p ∈ pieces, pieces.find? (fun p => decide (v ≤ p.visualStop)) = some p ∧
      p.Shows (p.sourceStart + (v - p.visualStart) * p.speed) v := by
  induction pieces generalizing a c with
  | nil => exact absurd rfl h_ne
  -- either the first piece reaches that far, or the rest has to
  | cons p rest ih =>
    obtain ⟨h_proper, -, rfl, h_rest⟩ := h
    by_cases h_in : v ≤ p.visualStop
    · exact ⟨p, List.mem_cons_self, by simp [h_in], h_proper.shows_at h_low h_in⟩
    · have h_rest_ne : rest ≠ [] := by
        rintro rfl
        exact h_in (h_high.trans h_rest.2.ge)
      obtain ⟨q, hq, h_find, h_q⟩ := ih h_rest h_rest_ne (le_of_not_ge h_in)
      refine ⟨q, List.mem_cons_of_mem _ hq, ?_, h_q⟩
      rw [List.find?_cons_of_neg (by simp [h_in]), h_find]

theorem find?_eq_none (h : Laid a c pieces b e) (h_v : e < v) :
    pieces.find? (fun p => decide (v ≤ p.visualStop)) = none := by
  induction pieces generalizing a c with
  | nil => rfl
  | cons p rest ih =>
    obtain ⟨-, -, -, h_rest⟩ := h
    have h_stop := h_rest.visual_le.trans_lt h_v
    rw [List.find?_cons_of_neg (by simp [h_stop])]
    exact ih h_rest

/-- Where the pieces end. -/
theorem exists_getLast? (h : Laid a c pieces b e) (h_ne : pieces ≠ []) :
    ∃ p, pieces.getLast? = some p ∧ p.sourceStop = b ∧ p.visualStop = e := by
  induction pieces generalizing a c with
  | nil => exact absurd rfl h_ne
  | cons p rest ih =>
    obtain ⟨-, -, -, h_rest⟩ := h
    cases rest with
    | nil => exact ⟨p, rfl, h_rest.1, h_rest.2⟩
    | cons p' rest =>
      rw [List.getLast?_cons_cons]
      exact ih h_rest (by simp)

theorem start_lt_stop (h : Laid a c pieces b e) (h_ne : pieces ≠ []) : a < b := by
  obtain ⟨p, rest, rfl⟩ := List.exists_cons_of_ne_nil h_ne
  obtain ⟨h_proper, rfl, -, h_rest⟩ := h
  exact h_proper.start_lt_stop.trans_le h_rest.start_le_stop

end Laid

/-! ### Maps that cover a range -/

namespace TimeMap

/-- The map shows the source from `a` to `b`, all of it and nothing else. -/
structure Covers (m : TimeMap ℚ) (a b : ℚ) : Prop where
  laid : Laid a 0 m.pieces b m.total
  ne_nil : m.pieces ≠ []

namespace Covers

variable {m : TimeMap ℚ} {a b s v : ℚ}

theorem toVisual_eq (h : m.Covers a b) (s : ℚ) : m.toVisual s = scanSource s m.total m.pieces := by
  obtain ⟨p, h_last, -, h_total⟩ := h.laid.exists_getLast? h.ne_nil
  rw [toVisual, h_last, ← h_total]

/-- Between the ends of the range, both directions stay on the graph. -/
theorem shows_toVisual (h : m.Covers a b) (h_low : a ≤ s) (h_high : s ≤ b) :
    Shows m.pieces s (m.toVisual s) := by
  rw [h.toVisual_eq]
  exact h.laid.shows_scanSource h.ne_nil h_low h_high

/-- A point of the graph is where the map sends its source time. -/
theorem toVisual_of_shows (h : m.Covers a b) (hs : Shows m.pieces s v) : m.toVisual s = v := by
  obtain ⟨h_low, h_high⟩ := h.laid.source_mem hs
  exact ((h.laid.aligned (h.shows_toVisual h_low h_high) hs).eq_iff).mp rfl

/-- A source time before the range is shown at the beginning. -/
theorem toVisual_of_le (h : m.Covers a b) (h_le : s ≤ a) : m.toVisual s = 0 := by
  rcases h_le.lt_or_eq with h_lt | rfl
  · -- the scan does not get past the first piece
    rw [h.toVisual_eq]
    exact h.laid.scanSource_of_lt h_lt
  · exact h.toVisual_of_shows (h.laid.shows_start h.ne_nil)

/-- A source time past the range is shown at the end. -/
theorem toVisual_of_ge (h : m.Covers a b) (h_ge : b ≤ s) : m.toVisual s = m.total := by
  rcases h_ge.lt_or_eq with h_gt | rfl
  · -- the scan passes all pieces
    rw [h.toVisual_eq]
    exact h.laid.scanSource_of_gt h_gt
  · exact h.toVisual_of_shows (h.laid.shows_stop h.ne_nil)

theorem zero_lt_total (h : m.Covers a b) : 0 < m.total :=
  ((h.laid.aligned (h.laid.shows_start h.ne_nil) (h.laid.shows_stop h.ne_nil)).lt_iff).mp
    (h.laid.start_lt_stop h.ne_nil)

theorem toSource_eq (h : m.Covers a b) (v : ℚ) :
    m.toSource v = if v ≤ 0 then a
      else match m.pieces.find? fun p => decide (v ≤ p.visualStop) with
        | some p => p.sourceStart + (v - p.visualStart) * p.speed
        | none => b := by
  obtain ⟨last, h_last, rfl, -⟩ := h.laid.exists_getLast? h.ne_nil
  obtain ⟨first, rest, h_eq⟩ := List.exists_cons_of_ne_nil h.ne_nil
  have h_laid := h.laid
  rw [h_eq] at h_laid
  have h_first : m.pieces.head? = some first := by rw [h_eq, List.head?_cons]
  rw [toSource, h_first, h_last, ← h_laid.2.1]
  cases m.pieces.find? fun p => decide (v ≤ p.visualStop) <;> rfl

/-- At the beginning and before it, the start of the range is shown. -/
theorem toSource_of_le (h : m.Covers a b) (h_le : v ≤ 0) : m.toSource v = a := by
  rw [h.toSource_eq, if_pos h_le]

theorem shows_toSource (h : m.Covers a b) (h_low : 0 ≤ v) (h_high : v ≤ m.total) :
    Shows m.pieces (m.toSource v) v := by
  rcases h_low.lt_or_eq with h_pos | rfl
  · obtain ⟨p, hp, h_find, h_p⟩ := h.laid.shows_find? h.ne_nil h_low h_high
    rw [h.toSource_eq, if_neg (not_le.mpr h_pos), h_find]
    exact ⟨p, hp, h_p⟩
  · rw [h.toSource_of_le le_rfl]
    exact h.laid.shows_start h.ne_nil

/-- A point of the graph is where the map sends its visual time. -/
theorem toSource_of_shows (h : m.Covers a b) (hs : Shows m.pieces s v) : m.toSource v = s := by
  obtain ⟨h_low, h_high⟩ := h.laid.visual_mem hs
  exact ((h.laid.aligned (h.shows_toSource h_low h_high) hs).eq_iff).mpr rfl

/-- At the end and past it, the stop of the range is shown. -/
theorem toSource_of_ge (h : m.Covers a b) (h_ge : m.total ≤ v) : m.toSource v = b := by
  rcases h_ge.lt_or_eq with h_gt | rfl
  · rw [h.toSource_eq, if_neg (not_le.mpr (h.zero_lt_total.trans h_gt))]
    rw [h.laid.find?_eq_none h_gt]
  · exact h.toSource_of_shows (h.laid.shows_stop h.ne_nil)

/-! ### Both directions at once -/

/-- **From visual to source time and back.** -/
theorem toVisual_toSource (h : m.Covers a b) (h_low : 0 ≤ v) (h_high : v ≤ m.total) :
    m.toVisual (m.toSource v) = v :=
  h.toVisual_of_shows (h.shows_toSource h_low h_high)

/-- Visual times lie within the edited clip. -/
theorem toVisual_mem (h : m.Covers a b) (s : ℚ) : 0 ≤ m.toVisual s ∧ m.toVisual s ≤ m.total := by
  rcases le_total s a with h_le | h_low
  · rw [h.toVisual_of_le h_le]
    exact ⟨le_rfl, h.zero_lt_total.le⟩
  · rcases le_total s b with h_high | h_ge
    · exact h.laid.visual_mem (h.shows_toVisual h_low h_high)
    · rw [h.toVisual_of_ge h_ge]
      exact ⟨h.zero_lt_total.le, le_rfl⟩

/-- Source times lie within the range. -/
theorem toSource_mem (h : m.Covers a b) (v : ℚ) : a ≤ m.toSource v ∧ m.toSource v ≤ b := by
  rcases le_total v 0 with h_le | h_low
  · rw [h.toSource_of_le h_le]
    exact ⟨le_rfl, h.laid.start_le_stop⟩
  · rcases le_total v m.total with h_high | h_ge
    · exact h.laid.source_mem (h.shows_toSource h_low h_high)
    · rw [h.toSource_of_ge h_ge]
      exact ⟨h.laid.start_le_stop, le_rfl⟩

/-- **From source to visual time and back.** -/
theorem toSource_toVisual (h : m.Covers a b) (h_low : a ≤ s) (h_high : s ≤ b) :
    m.toSource (m.toVisual s) = s :=
  h.toSource_of_shows (h.shows_toVisual h_low h_high)

theorem strictMonoOn_toVisual (h : m.Covers a b) : StrictMonoOn m.toVisual (Set.Icc a b) := by
  intro s hs s' hs' h_lt
  have h_aligned := h.laid.aligned (h.shows_toVisual hs.1 hs.2) (h.shows_toVisual hs'.1 hs'.2)
  exact h_aligned.lt_iff.mp h_lt

theorem strictMonoOn_toSource (h : m.Covers a b) :
    StrictMonoOn m.toSource (Set.Icc 0 m.total) := by
  intro v hv v' hv' h_lt
  have h_aligned := h.laid.aligned (h.shows_toSource hv.1 hv.2) (h.shows_toSource hv'.1 hv'.2)
  exact h_aligned.lt_iff.mpr h_lt

/-- What rises strictly on a range and stands still outside of it never falls. -/
theorem monotone_of_strictMonoOn {f : ℚ → ℚ} {lo hi : ℚ} (h_le : lo ≤ hi)
    (h_on : StrictMonoOn f (Set.Icc lo hi)) (h_low : ∀ x, x ≤ lo → f x = f lo)
    (h_high : ∀ x, hi ≤ x → f x = f hi) : Monotone f := by
  -- `f` does not see whether its argument is moved into the range first
  have h_clamp : ∀ x, f x = f (max lo (min x hi)) := by
    intro x
    rcases le_total x lo with h | h
    · rw [min_eq_left (h.trans h_le), max_eq_left h, h_low x h]
    · rcases le_total x hi with h' | h'
      · rw [min_eq_left h', max_eq_right h]
      · rw [min_eq_right h', max_eq_right h_le, h_high x h']
  have h_mem : ∀ x, max lo (min x hi) ∈ Set.Icc lo hi := by
    intro x
    exact ⟨le_max_left _ _, max_le h_le (min_le_right _ _)⟩
  intro x y h_xy
  have h_moved : max lo (min x hi) ≤ max lo (min y hi) :=
    max_le_max le_rfl (min_le_min h_xy le_rfl)
  calc f x = f (max lo (min x hi)) := h_clamp x
    _ ≤ f (max lo (min y hi)) := h_on.monotoneOn (h_mem x) (h_mem y) h_moved
    _ = f y := (h_clamp y).symm

theorem monotone_toVisual (h : m.Covers a b) : Monotone m.toVisual := by
  refine monotone_of_strictMonoOn h.laid.start_le_stop h.strictMonoOn_toVisual ?_ ?_
  · intro s hs
    rw [h.toVisual_of_le hs, h.toVisual_of_le le_rfl]
  · intro s hs
    rw [h.toVisual_of_ge hs, h.toVisual_of_ge le_rfl]

theorem monotone_toSource (h : m.Covers a b) : Monotone m.toSource := by
  refine monotone_of_strictMonoOn h.zero_lt_total.le h.strictMonoOn_toSource ?_ ?_
  · intro v hv
    rw [h.toSource_of_le hv, h.toSource_of_le le_rfl]
  · intro v hv
    rw [h.toSource_of_ge hv, h.toSource_of_ge le_rfl]

end Covers

end TimeMap

/-! ### The map of a timeline -/

theorem Span.visualDuration_of_shown {s : Span ℚ} (hs : s.isTrimmed = false) :
    s.visualDuration = (s.stop - s.start) / s.speed := by
  rw [Span.visualDuration, hs]
  rfl

/-- Spans that are shown and tile a stretch of the source are laid end to end. -/
theorem Tiles.laid {a b : ℚ} (c : ℚ) {l : List (Span ℚ)} (h : Tiles a l b)
    (h_speed : ∀ s ∈ l, 0 < s.speed) (h_shown : ∀ s ∈ l, s.isTrimmed = false) :
    ∃ e, Laid a c (TimeMap.layOut c l) b e := by
  induction l generalizing a c with
  | nil => exact ⟨c, h, rfl⟩
  | cons s rest ih =>
    obtain ⟨rfl, h_lt, h_rest⟩ := h
    obtain ⟨e, h_laid⟩ := ih (c + s.visualDuration) h_rest
      (fun x hx => h_speed x (List.mem_cons_of_mem _ hx))
      fun x hx => h_shown x (List.mem_cons_of_mem _ hx)
    refine ⟨e, ⟨h_lt, h_speed s List.mem_cons_self, ?_⟩, rfl, rfl, h_laid⟩
    change c + s.visualDuration = c + (s.stop - s.start) / s.speed
    rw [Span.visualDuration_of_shown (h_shown s List.mem_cons_self)]

namespace Timeline

/-- **The map of a sound timeline covers what the trims leave.** -/
theorem Sound.covers {t : Timeline ℚ} (h : t.Sound) :
    (TimeMap.ofTimeline t).Covers t.trimRange.start t.trimRange.stop := by
  obtain ⟨lead, shown, trail, h_parted⟩ := h.parted
  -- the shown part is a tiling of its own, with positive speeds
  have h_speed : ∀ s ∈ shown, 0 < s.speed := fun s hs =>
    (h.speeds s (by rw [h_parted.spans_eq]; simp [hs])).2
  obtain ⟨e, h_laid⟩ :=
    (h_parted.tiles_shown h.tiled).laid 0 h_speed h_parted.isTrimmed_shown
  have h_pieces : (TimeMap.ofTimeline t).pieces = TimeMap.layOut 0 shown := by
    rw [TimeMap.ofTimeline, h_parted.activeSpans_eq]
  -- something is shown, so there is a last piece, where the map ends
  have h_ne : TimeMap.layOut 0 shown ≠ [] := by
    obtain ⟨s, rest, rfl⟩ := List.exists_cons_of_ne_nil h_parted.shown_ne_nil
    simp [TimeMap.layOut]
  obtain ⟨p, h_p, -, h_total⟩ := h_laid.exists_getLast? h_ne
  refine ⟨?_, by rw [h_pieces]; exact h_ne⟩
  rw [TimeMap.total, h_pieces, h_p]
  dsimp only
  rw [h_total]
  exact h_laid

/-- Ten seconds cut at `4` and at `7`, the middle at double speed and the beginning trimmed away. -/
theorem exists_reachable_trimmed :
    ∃ t : Timeline ℚ, t.Reachable ∧ 0 < t.epsilon ∧ t.trimRange = ⟨4, 10⟩ ∧
      (TimeMap.ofTimeline t).total = 9 / 2 := by
  obtain ⟨t, h_t⟩ : ∃ t : Timeline ℚ, run ⟨10, [⟨0, 10, 1.0, false⟩], [], 1 / 100, .keepLeft⟩
      [.edit (.addBoundary 4), .edit (.addBoundary 7), .edit (.setSpeed 1 2), .edit (.trim 0)]
      = t := ⟨_, rfl⟩
  refine ⟨t, ⟨10, 1 / 100, .keepLeft, _, _, rfl, h_t⟩, ?_⟩
  rw [← h_t]
  decide +kernel

/-- **The two clocks undo each other**, in either order, on the whole edited clip and on all of the
source that the trims leave. -/
theorem toSource_toVisual_inverse {t : Timeline ℚ} (h : t.Reachable) (h_epsilon : 0 < t.epsilon) :
    (∀ v, 0 ≤ v → v ≤ (TimeMap.ofTimeline t).total →
        (TimeMap.ofTimeline t).toVisual ((TimeMap.ofTimeline t).toSource v) = v) ∧
      ∀ s, t.trimRange.start ≤ s → s ≤ t.trimRange.stop →
        (TimeMap.ofTimeline t).toSource ((TimeMap.ofTimeline t).toVisual s) = s := by
  have h_covers := (h.sound h_epsilon).covers
  exact ⟨fun v => h_covers.toVisual_toSource, fun s => h_covers.toSource_toVisual⟩

theorem toSource_toVisual_inverse_of_trimmed :
    ∃ t : Timeline ℚ, t.Reachable ∧ t.trimRange = ⟨4, 10⟩ ∧
      (TimeMap.ofTimeline t).toVisual ((TimeMap.ofTimeline t).toSource 2) = 2 ∧
      (TimeMap.ofTimeline t).toSource ((TimeMap.ofTimeline t).toVisual 5) = 5 := by
  obtain ⟨t, h, h_epsilon, h_range, h_total⟩ := exists_reachable_trimmed
  obtain ⟨h_visual, h_source⟩ := toSource_toVisual_inverse h h_epsilon
  rw [h_range] at h_source
  rw [h_total] at h_visual
  refine ⟨t, h, h_range, h_visual 2 ?_ ?_, h_source 5 ?_ ?_⟩ <;> norm_num

/-- **Neither clock ever runs backwards.** Each rises strictly while the other one is within its
range, stays within its own, and stands still at the ends. -/
theorem toVisual_toSource_monotone {t : Timeline ℚ} (h : t.Reachable)
    (h_epsilon : 0 < t.epsilon) :
    (Monotone (TimeMap.ofTimeline t).toVisual ∧
        StrictMonoOn (TimeMap.ofTimeline t).toVisual
          (Set.Icc t.trimRange.start t.trimRange.stop) ∧
        (∀ s, 0 ≤ (TimeMap.ofTimeline t).toVisual s ∧
          (TimeMap.ofTimeline t).toVisual s ≤ (TimeMap.ofTimeline t).total) ∧
        (∀ s, s ≤ t.trimRange.start → (TimeMap.ofTimeline t).toVisual s = 0) ∧
        ∀ s, t.trimRange.stop ≤ s →
          (TimeMap.ofTimeline t).toVisual s = (TimeMap.ofTimeline t).total) ∧
      Monotone (TimeMap.ofTimeline t).toSource ∧
        StrictMonoOn (TimeMap.ofTimeline t).toSource
          (Set.Icc 0 (TimeMap.ofTimeline t).total) ∧
        (∀ v, t.trimRange.start ≤ (TimeMap.ofTimeline t).toSource v ∧
          (TimeMap.ofTimeline t).toSource v ≤ t.trimRange.stop) ∧
        (∀ v, v ≤ 0 → (TimeMap.ofTimeline t).toSource v = t.trimRange.start) ∧
        ∀ v, (TimeMap.ofTimeline t).total ≤ v →
          (TimeMap.ofTimeline t).toSource v = t.trimRange.stop := by
  -- everything that is said of the two clocks holds of maps that cover a range
  have h_covers := (h.sound h_epsilon).covers
  exact ⟨⟨h_covers.monotone_toVisual, h_covers.strictMonoOn_toVisual, h_covers.toVisual_mem,
      fun s => h_covers.toVisual_of_le, fun s => h_covers.toVisual_of_ge⟩,
    h_covers.monotone_toSource, h_covers.strictMonoOn_toSource, h_covers.toSource_mem,
    fun v => h_covers.toSource_of_le, fun v => h_covers.toSource_of_ge⟩

theorem toVisual_toSource_monotone_of_trimmed :
    ∃ t : Timeline ℚ, t.Reachable ∧ t.trimRange = ⟨4, 10⟩ ∧
      (TimeMap.ofTimeline t).toVisual 3 = 0 ∧
      (TimeMap.ofTimeline t).toVisual 5 < (TimeMap.ofTimeline t).toVisual 8 ∧
      (TimeMap.ofTimeline t).toSource 1 < (TimeMap.ofTimeline t).toSource 2 ∧
      (TimeMap.ofTimeline t).toSource 6 = 10 := by
  obtain ⟨t, h, h_epsilon, h_range, h_total⟩ := exists_reachable_trimmed
  obtain ⟨⟨-, h_visual, -, h_before, -⟩, -, h_source, -, -, h_past⟩ :=
    toVisual_toSource_monotone h h_epsilon
  rw [h_range] at h_visual h_before h_past
  rw [h_total] at h_source h_past
  refine ⟨t, h, h_range, h_before 3 ?_, h_visual ⟨?_, ?_⟩ ⟨?_, ?_⟩ ?_,
    h_source ⟨?_, ?_⟩ ⟨?_, ?_⟩ ?_, h_past 6 ?_⟩ <;> norm_num

end Timeline

end ClipEdit
