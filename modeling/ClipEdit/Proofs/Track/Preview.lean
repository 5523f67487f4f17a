import ClipEdit.Clip.Export
import ClipEdit.Proofs.Track.Edits
import ClipEdit.Scalar.Exact
import Mathlib.Algebra.Order.Field.Basic
import Mathlib.Algebra.Order.Ring.Rat
import Mathlib.Data.List.Nodup
import Mathlib.Tactic.Linarith

/-!
# What keyframes show

`Interpolates keys frame v` says, without a scan, that a list of keyframes shows the value `v` at a
frame: a keyframe stands there and has it, or it is the linear blend of two neighbours around the
frame. The renderer sees nothing but such a list, so this is what a payload means to it.

* `Interpolates.unique` — keyframes that ascend show at most one value at a frame;
* `Track.Sound.interpolates_sample` — those of a sound track show what `sample` answers;
* `Track.Sound.sample_eq_of_get?` — on a keyframe that is the value of the keyframe;
* `Interpolates.of_forall`, `Interpolates.exists_map` — a property that blending keeps is handed on
  from the keyframes to what they show, and so is a relation between two lists of them.

Everything here is about exact arithmetic.
-/

namespace ClipEdit

open Scalar

variable {V : Type}

/-- The keyframes ascend. -/
def Ascending (keys : List (FrameValue V)) : Prop :=
  keys.Pairwise fun a b => a.frame < b.frame

/-- The keyframes ascend from frame `0` to a last frame. -/
structure RunsTo (keys : List (FrameValue V)) (lastFrame : Frame) : Prop where
  ascending : Ascending keys
  first : keys.head?.map FrameValue.frame = some 0
  last : keys.getLast?.map FrameValue.frame = some lastFrame

/-- One keyframe directly behind another. -/
def Neighbours (keys : List (FrameValue V)) (a b : FrameValue V) : Prop :=
  ∃ before behind, keys = before ++ a :: b :: behind

/-- The keyframe in force at a frame: of those at or before the frame the latest. -/
structure IsLatest (keys : List (FrameValue V)) (frame : Frame) (k : FrameValue V) : Prop where
  mem : k ∈ keys
  frame_le : k.frame ≤ frame
  le_of_mem : ∀ k' ∈ keys, k'.frame ≤ frame → k'.frame ≤ k.frame

/-- **What keyframes show at a frame**: the value of the keyframe there, or the blend of the two
neighbours around it, in proportion to the distance from the first one. -/
inductive Interpolates [Blend ℚ V] (keys : List (FrameValue V)) (frame : Frame) : V → Prop
  | here {k : FrameValue V} (h_mem : k ∈ keys) (h_at : k.frame = frame) :
      Interpolates keys frame k.value
  | between {a b : FrameValue V} (h_near : Neighbours keys a b) (h_left : a.frame < frame)
      (h_right : frame < b.frame) :
      Interpolates keys frame
        (Blend.blend a.value b.value (((frame : ℚ) - a.frame) / ((b.frame : ℚ) - a.frame)))

variable {keys : List (FrameValue V)} {frame : Frame} {a b k k' : FrameValue V}

/-! ### Neighbours -/

namespace Neighbours

theorem mem_left (h : Neighbours keys a b) : a ∈ keys := by
  obtain ⟨before, behind, rfl⟩ := h
  simp

theorem mem_right (h : Neighbours keys a b) : b ∈ keys := by
  obtain ⟨before, behind, rfl⟩ := h
  simp

theorem cons (h : Neighbours keys a b) (k : FrameValue V) : Neighbours (k :: keys) a b := by
  obtain ⟨before, behind, rfl⟩ := h
  exact ⟨k :: before, behind, rfl⟩

theorem map (h : Neighbours keys a b) (f : FrameValue V → FrameValue V) :
    Neighbours (keys.map f) (f a) (f b) := by
  obtain ⟨before, behind, rfl⟩ := h
  exact ⟨before.map f, behind.map f, by simp⟩

/-- Nothing stands between two neighbours. -/
theorem le_or_le (h : Neighbours keys a b) (h_ascending : Ascending keys) (h_mem : k ∈ keys) :
    k.frame ≤ a.frame ∨ b.frame ≤ k.frame := by
  obtain ⟨before, behind, rfl⟩ := h
  obtain ⟨-, h_right, h_across⟩ := List.pairwise_append.mp h_ascending
  obtain ⟨-, h_behind⟩ := List.pairwise_cons.mp h_right
  obtain ⟨h_b, -⟩ := List.pairwise_cons.mp h_behind
  rcases List.mem_append.mp h_mem with h_k | h_k
  · exact Or.inl (h_across k h_k a List.mem_cons_self).le
  · rcases List.mem_cons.mp h_k with rfl | h_k
    · exact Or.inl le_rfl
    · rcases List.mem_cons.mp h_k with rfl | h_k
      · exact Or.inr le_rfl
      · exact Or.inr (h_b k h_k).le

/-- What lies before the second of two neighbours lies at or before the first. -/
theorem le_left (h : Neighbours keys a b) (h_ascending : Ascending keys) (h_mem : k ∈ keys)
    (h_lt : k.frame < b.frame) : k.frame ≤ a.frame :=
  (h.le_or_le h_ascending h_mem).resolve_right (not_le.mpr h_lt)

/-- What lies behind the first of two neighbours lies at or behind the second. -/
theorem le_right (h : Neighbours keys a b) (h_ascending : Ascending keys) (h_mem : k ∈ keys)
    (h_lt : a.frame < k.frame) : b.frame ≤ k.frame :=
  (h.le_or_le h_ascending h_mem).resolve_left (not_le.mpr h_lt)

end Neighbours

/-- A frame has one keyframe at most. -/
theorem Ascending.eq_of_frame_eq (h : Ascending keys) (h_mem : k ∈ keys) (h_mem' : k' ∈ keys)
    (h_eq : k.frame = k'.frame) : k = k' := by
  have h_nodup : (keys.map FrameValue.frame).Nodup :=
    List.pairwise_map.mpr (h.imp fun h_lt => h_lt.ne)
  exact List.inj_on_of_nodup_map h_nodup h_mem h_mem' h_eq

/-- Between two keyframes the weight of the second one is a proper fraction. -/
theorem weight_mem (h_left : a.frame < frame) (h_right : frame < b.frame) :
    0 ≤ ((frame : ℚ) - a.frame) / ((b.frame : ℚ) - a.frame) ∧
      ((frame : ℚ) - a.frame) / ((b.frame : ℚ) - a.frame) ≤ 1 := by
  have h_left' : (a.frame : ℚ) < frame := by exact_mod_cast h_left
  have h_right' : (frame : ℚ) < b.frame := by exact_mod_cast h_right
  constructor
  · exact div_nonneg (by linarith) (by linarith)
  · rw [div_le_one (by linarith)]
    linarith

/-! ### One value at a frame -/

namespace Interpolates

variable [Blend ℚ V] {v w : V}

/-- **Keyframes that ascend show one value at a frame.** -/
theorem unique (h : Ascending keys) (hv : Interpolates keys frame v)
    (hw : Interpolates keys frame w) : v = w := by
  cases hv with
  | here h_mem h_at =>
    cases hw with
    | here h_mem' h_at' => rw [h.eq_of_frame_eq h_mem h_mem' (h_at.trans h_at'.symm)]
    | between h_near h_left h_right =>
      -- a keyframe at the frame itself would stand between two neighbours
      subst h_at
      exact absurd (h_near.le_right h h_mem h_left) (not_le.mpr h_right)
  | @between a b h_near h_left h_right =>
    cases hw with
    | here h_mem h_at =>
      subst h_at
      exact absurd (h_near.le_right h h_mem h_left) (not_le.mpr h_right)
    | @between a' b' h_near' h_left' h_right' =>
      -- neither pair has a keyframe of the other one between its own
      have h_a : a.frame = a'.frame :=
        le_antisymm (h_near'.le_left h h_near.mem_left (h_left.trans h_right'))
          (h_near.le_left h h_near'.mem_left (h_left'.trans h_right))
      have h_b : b.frame = b'.frame :=
        le_antisymm (h_near.le_right h h_near'.mem_right (h_left.trans h_right'))
          (h_near'.le_right h h_near.mem_right (h_left'.trans h_right))
      rw [h.eq_of_frame_eq h_near.mem_left h_near'.mem_left h_a,
        h.eq_of_frame_eq h_near.mem_right h_near'.mem_right h_b]

theorem cons (h : Interpolates keys frame v) (k : FrameValue V) :
    Interpolates (k :: keys) frame v := by
  cases h with
  | here h_mem h_at => exact .here (List.mem_cons_of_mem k h_mem) h_at
  | between h_near h_left h_right => exact .between (h_near.cons k) h_left h_right

/-- What keyframes with a property show has it too, if blending keeps it. -/
theorem of_forall {P : V → Prop} (h : Interpolates keys frame v) (h_keys : ∀ k ∈ keys, P k.value)
    (h_blend : ∀ a b s, P a → P b → 0 ≤ s → s ≤ 1 → P (Blend.blend a b s)) : P v := by
  cases h with
  | here h_mem h_at => exact h_keys _ h_mem
  | between h_near h_left h_right =>
    obtain ⟨h_nonneg, h_le_one⟩ := weight_mem h_left h_right
    exact h_blend _ _ _ (h_keys _ h_near.mem_left) (h_keys _ h_near.mem_right) h_nonneg h_le_one

/-- Keyframes that are changed one by one show something that is related to what they showed
before, if blending keeps the relation. -/
theorem exists_map {R : V → V → Prop} {f : V → V} (h : Interpolates keys frame v)
    (h_keys : ∀ k ∈ keys, R k.value (f k.value))
    (h_blend : ∀ a a' b b' s, R a a' → R b b' → 0 ≤ s → s ≤ 1 →
      R (Blend.blend a b s) (Blend.blend a' b' s)) :
    ∃ w, Interpolates (keys.map fun k => ⟨k.frame, f k.value⟩) frame w ∧ R v w := by
  cases h with
  | @here k h_mem h_at =>
    exact ⟨f k.value, .here (k := ⟨k.frame, f k.value⟩) (List.mem_map_of_mem h_mem) h_at,
      h_keys k h_mem⟩
  | @between a b h_near h_left h_right =>
    obtain ⟨h_nonneg, h_le_one⟩ := weight_mem h_left h_right
    exact ⟨_, .between (h_near.map fun k => ⟨k.frame, f k.value⟩) h_left h_right,
      h_blend _ _ _ _ _ (h_keys a h_near.mem_left) (h_keys b h_near.mem_right) h_nonneg h_le_one⟩

/-- What is shown begins at the keyframe in force. -/
theorem exists_isLatest (h : Interpolates keys frame v) (h_ascending : Ascending keys) :
    ∃ k, IsLatest keys frame k ∧ (v = k.value ∨ ∃ w s, v = Blend.blend k.value w s) := by
  cases h with
  | @here k h_mem h_at =>
    exact ⟨k, ⟨h_mem, h_at.le, fun k' _ h_le => h_le.trans h_at.ge⟩, Or.inl rfl⟩
  | @between a b h_near h_left h_right =>
    refine ⟨a, ⟨h_near.mem_left, h_left.le, ?_⟩, Or.inr ⟨_, _, rfl⟩⟩
    exact fun k' h_mem h_le => h_near.le_left h_ascending h_mem (h_le.trans_lt h_right)

end Interpolates

/-! ### The keyframes of a track -/

namespace Track

variable {t : Track V}

/-- A keyframe without its origin. -/
def toShown (k : Keyframe V) : FrameValue V := ⟨k.frame, k.value⟩

/-- In a sound track the keyframes show what they store. -/
theorem Sound.shown_eq (h : t.Sound) : t.shown = t.keyframes.map toShown := by
  refine List.map_congr_left fun k h_k => ?_
  rw [toShown]
  split
  · next h_end =>
    -- the end is the only keyframe there
    rw [h.endValue_eq]
    rcases mem_keyframes.mp h_k with rfl | ⟨key, h_key, rfl⟩ | rfl
    · exact absurd h_end h.zero_lt_endFrame.ne
    · exact absurd h_end (h.between key h_key).2.ne
    · rfl
  · rfl

@[simp] theorem map_frame_shown (t : Track V) : t.shown.map FrameValue.frame = t.frames := by
  rw [shown, frames, List.map_map]
  rfl

/-- Keyframes at the frames of a sound track run from `0` to its end. -/
theorem Sound.runsTo (h : t.Sound) (h_frames : keys.map FrameValue.frame = t.frames) :
    RunsTo keys t.endFrame where
  ascending := by
    refine List.pairwise_map.mp ?_
    rw [h_frames]
    exact h.pairwise_frames
  first := by rw [← List.head?_map, h_frames, h.wellFormed.head?_frames]
  last := by rw [← List.getLast?_map, h_frames, h.wellFormed.getLast?_frames]

/-- A keyframe that can be looked up is one of those that are shown. -/
theorem Sound.mem_shown {value : V} (h : t.Sound) (h_get : t.get? frame = some value) :
    ⟨frame, value⟩ ∈ t.shown := by
  rw [h.shown_eq, List.mem_map]
  rw [get?] at h_get
  split at h_get
  · next h_end =>
    -- at the end, the value that is stored there
    rw [h.endValue_eq, Option.some.injEq] at h_get
    exact ⟨_, mem_keyframes.mpr (.inr (.inr rfl)), by rw [toShown, h_end, h_get]⟩
  · split at h_get
    · next h_zero =>
      exact ⟨_, mem_keyframes.mpr (.inl rfl), by rw [toShown, h_zero, Option.some.inj h_get]⟩
    · -- strictly between the ends, a keyframe of the user
      obtain ⟨a, b, h_eq, -⟩ := List.lookup_eq_some_iff.mp h_get
      refine ⟨_, mem_keyframes.mpr (.inr (.inl ⟨(frame, value), ?_, rfl⟩)), rfl⟩
      rw [h_eq]
      simp

/-- A property of all values that are stored is one of all values that keyframes show. -/
theorem Each.shown {P : V → Prop} (h : t.Each P) : ∀ k ∈ t.shown, P k.value := by
  intro k h_mem
  obtain ⟨k', h_mem', rfl⟩ := List.mem_map.mp h_mem
  dsimp only
  split
  · exact h.endValue
  · exact h.keyframes k' h_mem'

variable [Blend ℚ V]

/-- The scan finds the keyframe at a frame, or the two neighbours around it. -/
theorem interpolates_sampleFrom {last : Keyframe V} {rest : List (Keyframe V)}
    (h_behind : last.frame < frame) (h_end : ∃ k ∈ rest, frame ≤ k.frame) :
    Interpolates ((last :: rest).map toShown) frame (sampleFrom frame last rest) := by
  -- `last` moves along with the scan and always lies before the frame
  induction rest generalizing last with
  | nil =>
    obtain ⟨k, h_mem, -⟩ := h_end
    exact absurd h_mem List.not_mem_nil
  | cons next rest ih =>
    rw [sampleFrom]
    split
    · next h_lt =>
      have h_between : Interpolates ((last :: next :: rest).map toShown) frame _ :=
        .between (a := toShown last) (b := toShown next) ⟨[], rest.map toShown, rfl⟩ h_behind h_lt
      rw [Nat.cast_sub h_behind.le, Nat.cast_sub (h_behind.trans h_lt).le]
      exact h_between
    · next h_not =>
      split
      · next h_eq => exact .here (k := toShown next) (by simp) h_eq.symm
      · next h_ne =>
        have h_past : next.frame < frame := lt_of_le_of_ne (not_lt.mp h_not) (Ne.symm h_ne)
        refine (ih h_past ?_).cons (toShown last)
        -- the keyframe that is not before the frame is still ahead
        obtain ⟨k, h_mem, h_le⟩ := h_end
        rcases List.mem_cons.mp h_mem with rfl | h_mem
        · exact absurd h_past (not_lt.mpr h_le)
        · exact ⟨k, h_mem, h_le⟩

/-- **The preview of a sound track is what its keyframes show**, up to its end. -/
theorem Sound.interpolates_sample (h : t.Sound) (h_le : frame ≤ t.endFrame) :
    Interpolates t.shown frame (t.sample frame) := by
  rw [h.shown_eq, sample]
  split
  · next h_end =>
    rw [h.endValue_eq]
    exact .here (k := ⟨t.endFrame, t.storedEnd⟩) (by simp [keyframes, toShown])
      (le_antisymm h_end h_le)
  · split
    · next h_zero =>
      exact .here (k := ⟨0, t.start⟩) (List.mem_map_of_mem List.mem_cons_self) h_zero.symm
    · next h_zero =>
      refine interpolates_sampleFrom (Nat.pos_of_ne_zero h_zero) ?_
      exact ⟨⟨t.endFrame, t.storedEnd, .permanent⟩, by simp, h_le⟩

/-- **On a keyframe the preview is the keyframe.** -/
theorem Sound.sample_eq_of_get? {value : V} (h : t.Sound) (h_get : t.get? frame = some value) :
    t.sample frame = value := by
  have h_mem := h.mem_shown h_get
  have h_le : frame ≤ t.endFrame := by
    have h_frame : frame ∈ t.frames := by
      rw [← map_frame_shown]
      exact List.mem_map_of_mem h_mem
    rw [frames_eq, List.mem_cons, List.mem_append, List.mem_map, List.mem_singleton] at h_frame
    rcases h_frame with rfl | ⟨key, h_key, rfl⟩ | rfl
    · exact Nat.zero_le _
    · exact (h.between key h_key).2.le
    · exact le_rfl
  have h_ascending : Ascending t.shown := (h.runsTo t.map_frame_shown).ascending
  exact (h.interpolates_sample h_le).unique h_ascending (.here h_mem rfl)

/-- A property of all values that are stored is one of all values that are shown, if blending keeps
it. -/
theorem Sound.sample_of_each (h : t.Sound) {P : V → Prop} (h_each : t.Each P)
    (h_blend : ∀ a b s, P a → P b → 0 ≤ s → s ≤ 1 → P (Blend.blend a b s)) (frame : Frame) :
    P (t.sample frame) := by
  rcases le_or_gt frame t.endFrame with h_le | h_gt
  · exact (h.interpolates_sample h_le).of_forall h_each.shown h_blend
  · -- past the end it is the end that is shown
    rw [sample, if_pos h_gt.le]
    exact h_each.endValue

end Track

end ClipEdit
