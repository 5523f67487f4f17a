import ClipEdit.Track.Basic
import Mathlib.Data.List.Basic
import Mathlib.Order.MinMax

/-!
# Tracks under edits

A track is made by `create` and then changes by edits only. What an edit can do is said once:

* `insert_cases` — refused, or the end, the start or one keyframe between them is written;
* `erase_cases` — refused, or the user's keyframe at one frame is gone.

Everything that holds of all tracks is derived from these two. `Sound` is the invariant: the user's
keyframes ascend strictly between the start and the end, and an implicit end stores the value of the
start (`Sound.create`, `Sound.apply`, `Sound.run`). The end is explicit from the first time that it
is written (`endMode_run`). `WellFormed` says what this means to a reader of the keyframes, and
`run_create_wellFormed` that it holds whatever is done to a new track.

`Each` is a property of all values that a track stores. An edit keeps it if the value that it writes
has the property (`Each.insert`, `Each.erase`).
-/

namespace ClipEdit

namespace Track

variable {V : Type} {t : Track V} {frame : Frame} {value : V}

/-! ### The user's keyframes -/

section Keys

variable {keys : List (Frame × V)} {key : Frame × V}

theorem mem_insertKey (h : key ∈ insertKey frame value keys) : key = (frame, value) ∨ key ∈ keys := by
  induction keys with
  | nil => exact Or.inl (List.mem_singleton.mp h)
  | cons first rest ih =>
    rw [insertKey] at h
    split at h
    · exact List.mem_cons.mp h
    · split at h
      · exact (List.mem_cons.mp h).imp_right (List.mem_cons_of_mem first)
      · rcases List.mem_cons.mp h with rfl | h_rest
        · exact Or.inr List.mem_cons_self
        · exact (ih h_rest).imp_right (List.mem_cons_of_mem first)

/-- Keyframes that ascend still do with one more among them. -/
theorem pairwise_insertKey (h : keys.Pairwise fun a b => a.1 < b.1) :
    (insertKey frame value keys).Pairwise fun a b => a.1 < b.1 := by
  induction keys with
  | nil => exact List.pairwise_singleton _ _
  | cons first rest ih =>
    obtain ⟨h_first, h_rest⟩ := List.pairwise_cons.mp h
    rw [insertKey]
    split
    · -- the new keyframe goes in front of all others
      next h_lt =>
      refine List.pairwise_cons.mpr ⟨?_, h⟩
      intro key h_key
      rcases List.mem_cons.mp h_key with rfl | h_key
      · exact h_lt
      · exact lt_trans h_lt (h_first key h_key)
    · next h_not =>
      split
      · -- it takes the place of the first one
        next h_eq =>
        subst h_eq
        exact List.pairwise_cons.mpr ⟨h_first, h_rest⟩
      · -- it goes somewhere behind the first one, which has to stay below it, too
        next h_ne =>
        refine List.pairwise_cons.mpr ⟨?_, ih h_rest⟩
        intro key h_key
        rcases mem_insertKey h_key with rfl | h_key
        · exact lt_of_le_of_ne (not_lt.mp h_not) (Ne.symm h_ne)
        · exact h_first key h_key

theorem lookup_cons_eq (frame : Frame) (key : Frame × V) (keys : List (Frame × V)) :
    (key :: keys).lookup frame = if frame = key.1 then some key.2 else keys.lookup frame := by
  rw [List.lookup_cons]
  by_cases h : frame = key.1
  · rw [if_pos h, h, beq_self_eq_true]
  · rw [if_neg h, beq_false_of_ne h]

/-- What was put in is found again, and everything else is found as before. -/
theorem lookup_insertKey (frame frame' : Frame) (value : V) (keys : List (Frame × V)) :
    (insertKey frame value keys).lookup frame' =
      if frame' = frame then some value else keys.lookup frame' := by
  induction keys with
  | nil => exact lookup_cons_eq frame' (frame, value) []
  | cons first rest ih =>
    rw [insertKey]
    split
    · exact lookup_cons_eq frame' (frame, value) _
    · split
      · next h_eq =>
        subst h_eq
        rw [lookup_cons_eq, lookup_cons_eq]
        split <;> rfl
      · next h_ne =>
        -- the first keyframe stands at another frame, so it hides nothing that was put in
        rw [lookup_cons_eq, lookup_cons_eq, ih]
        by_cases h : frame' = frame
        · rw [if_pos h, if_pos h, if_neg (h ▸ h_ne)]
        · rw [if_neg h, if_neg h]

end Keys

/-! ### What an edit can do -/

/-- A write is refused past the end. Elsewhere it makes the end explicit, sets the start and an
implicit end with it, or puts one keyframe between them. -/
theorem insert_cases (t : Track V) (frame : Frame) (value : V) :
    (t.endFrame < frame ∧ t.insert frame value = .refuse t) ∨
      (frame = t.endFrame ∧
        t.insert frame value = .accept { t with storedEnd := value, endMode := .explicit }) ∨
      (frame = 0 ∧ 0 < t.endFrame ∧
        t.insert frame value = .accept { t with
          start := value
          storedEnd := if t.endMode = .implicit then value else t.storedEnd }) ∨
      (0 < frame ∧ frame < t.endFrame ∧
        t.insert frame value = .accept { t with inner := insertKey frame value t.inner }) := by
  rw [insert]
  split
  · next h_past => exact Or.inl ⟨h_past, rfl⟩
  · next h_not =>
    split
    · next h_end => exact Or.inr (Or.inl ⟨h_end, rfl⟩)
    · next h_ne =>
      have h_lt : frame < t.endFrame := lt_of_le_of_ne (not_lt.mp h_not) h_ne
      -- strictly before the end, where the start has a place of its own
      split
      · next h_zero =>
        refine Or.inr (Or.inr (Or.inl ⟨h_zero, h_zero ▸ h_lt, ?_⟩))
        cases h_mode : t.endMode <;> simp
      · next h_zero =>
        exact Or.inr (Or.inr (Or.inr ⟨Nat.pos_of_ne_zero h_zero, h_lt, rfl⟩))

/-- **A write up to the end is carried out**, and the keyframe there shows what was written. -/
theorem insert_eq_accept (h : frame ≤ t.endFrame) (value : V) :
    ∃ t', t.insert frame value = .accept t' ∧ t'.get? frame = some value := by
  rcases t.insert_cases frame value with ⟨h_past, -⟩ | ⟨h_end, h_eq⟩ | ⟨h_zero, h_pos, h_eq⟩ |
    ⟨h_pos, h_lt, h_eq⟩
  · exact absurd h_past (not_lt.mpr h)
  · refine ⟨_, h_eq, ?_⟩
    rw [get?, if_pos h_end, endValue]
  · refine ⟨_, h_eq, ?_⟩
    rw [get?, if_neg (h_zero ▸ h_pos.ne), if_pos h_zero]
  · refine ⟨_, h_eq, ?_⟩
    rw [get?, if_neg h_lt.ne, if_neg h_pos.ne', lookup_insertKey, if_pos rfl]

/-- A frame without a keyframe of the user is refused, and any other one loses it. -/
theorem erase_cases (t : Track V) (frame : Frame) :
    t.erase frame = .refuse t ∨
      t.erase frame = .accept { t with inner := t.inner.filter fun key => key.1 != frame } := by
  rw [erase]
  split
  · exact Or.inr rfl
  · exact Or.inl rfl

/-- No edit moves the end. -/
@[simp] theorem endFrame_apply (t : Track V) (e : Edit V) :
    (t.apply e).state.endFrame = t.endFrame := by
  cases e with
  | insert frame value =>
    rcases t.insert_cases frame value with ⟨-, h⟩ | ⟨-, h⟩ | ⟨-, -, h⟩ | ⟨-, -, h⟩ <;>
      simp [apply, h]
  | erase frame =>
    rcases t.erase_cases frame with h | h <;> simp [apply, h]

@[simp] theorem run_nil (t : Track V) : t.run [] = t := rfl

@[simp] theorem run_cons (t : Track V) (e : Edit V) (edits : List (Edit V)) :
    t.run (e :: edits) = (t.apply e).state.run edits := rfl

theorem run_append (t : Track V) (edits more : List (Edit V)) :
    t.run (edits ++ more) = (t.run edits).run more :=
  List.foldl_append

@[simp] theorem endFrame_run (t : Track V) (edits : List (Edit V)) :
    (t.run edits).endFrame = t.endFrame := by
  induction edits generalizing t with
  | nil => rfl
  | cons e rest ih => rw [run_cons, ih, endFrame_apply]

/-! ### The mode of the end -/

/-- An edit makes the end explicit exactly if it writes there; no edit makes it implicit again. -/
theorem endMode_apply (t : Track V) (e : Edit V) :
    (t.apply e).state.endMode = .explicit ↔
      t.endMode = .explicit ∨ ∃ value, e = .insert t.endFrame value := by
  cases e with
  | insert frame value =>
    rcases t.insert_cases frame value with ⟨h_at, h⟩ | ⟨h_at, h⟩ | ⟨h_at, h_pos, h⟩ | ⟨-, h_at, h⟩
    · -- only writing at the end makes it explicit
      rw [apply, h]
      simp [ne_of_gt h_at]
    · rw [apply, h]
      simp [h_at]
    · rw [apply, h]
      simp [h_at, ne_of_lt h_pos]
    · rw [apply, h]
      simp [ne_of_lt h_at]
  | erase frame =>
    rcases t.erase_cases frame with h | h <;> simp [apply, h]

/-- **There is no way back.** The end is explicit from the first time that it is written. -/
theorem endMode_run (t : Track V) (edits : List (Edit V)) :
    (t.run edits).endMode = .explicit ↔
      t.endMode = .explicit ∨ ∃ value, .insert t.endFrame value ∈ edits := by
  induction edits generalizing t with
  | nil => simp
  | cons e rest ih =>
    -- the edits before do not move the end, so all of them write to it at the same frame
    rw [run_cons, ih, endMode_apply, endFrame_apply, or_assoc, ← exists_or]
    simp only [List.mem_cons, eq_comm]

/-! ### The invariant -/

/-- **A sound track**: the user's keyframes ascend between the start and the end, and an implicit
end stores what the start stores. -/
structure Sound (t : Track V) : Prop where
  zero_lt_endFrame : 0 < t.endFrame
  between : ∀ key ∈ t.inner, 0 < key.1 ∧ key.1 < t.endFrame
  ascending : t.inner.Pairwise fun a b => a.1 < b.1
  mirrors : t.endMode = .implicit → t.storedEnd = t.start

namespace Sound

theorem create (initial : V) (lastFrame : Frame) : (create initial lastFrame).Sound where
  zero_lt_endFrame := lt_of_lt_of_le Nat.zero_lt_one (le_max_right lastFrame 1)
  between := by
    intro key h_key
    exact absurd h_key List.not_mem_nil
  ascending := .nil
  mirrors _ := rfl

/-- **An edit keeps a track sound.** -/
theorem apply (h : t.Sound) (e : Edit V) : (t.apply e).state.Sound := by
  cases e with
  | insert frame value =>
    rcases t.insert_cases frame value with ⟨-, h_eq⟩ | ⟨-, h_eq⟩ | ⟨-, -, h_eq⟩ |
      ⟨h_pos, h_lt, h_eq⟩
    · rw [Track.apply, h_eq]
      exact h
    · -- the end does not mirror anything from now on
      rw [Track.apply, h_eq]
      exact ⟨h.zero_lt_endFrame, h.between, h.ascending, fun h_mode => by simp at h_mode⟩
    · rw [Track.apply, h_eq]
      exact ⟨h.zero_lt_endFrame, h.between, h.ascending, fun h_mode => if_pos h_mode⟩
    · -- neither permanent keyframe is touched, and the new one lies between them
      rw [Track.apply, h_eq]
      refine ⟨h.zero_lt_endFrame, ?_, pairwise_insertKey h.ascending, h.mirrors⟩
      intro key h_key
      rcases mem_insertKey h_key with rfl | h_key
      · exact ⟨h_pos, h_lt⟩
      · exact h.between key h_key
  | erase frame =>
    rcases t.erase_cases frame with h_eq | h_eq
    · rw [Track.apply, h_eq]
      exact h
    · rw [Track.apply, h_eq]
      exact ⟨h.zero_lt_endFrame, fun key h_key => h.between key (List.mem_of_mem_filter h_key),
        h.ascending.filter _, h.mirrors⟩

/-- **So does every list of edits.** -/
theorem run (h : t.Sound) (edits : List (Edit V)) : (t.run edits).Sound := by
  induction edits generalizing t with
  | nil => exact h
  | cons e rest ih => exact ih (h.apply e)

/-- The value stored at the end is the one that the end shows. -/
theorem endValue_eq (h : t.Sound) : t.endValue = t.storedEnd := by
  rw [endValue]
  split
  · next h_mode => exact (h.mirrors h_mode).symm
  · rfl

end Sound

/-! ### What a reader of the keyframes can rely on -/

theorem frames_eq (t : Track V) : t.frames = 0 :: (t.inner.map Prod.fst ++ [t.endFrame]) := by
  simp [frames, keyframes, Function.comp_def]

theorem size_eq (t : Track V) : t.size = t.inner.length + 2 := by
  simp [size, keyframes]

/-- A keyframe stands at the start, is one of the user's, or stands at the end. -/
theorem mem_keyframes {k : Keyframe V} :
    k ∈ t.keyframes ↔ k = ⟨0, t.start, .permanent⟩ ∨
      (∃ key ∈ t.inner, k = ⟨key.1, key.2, .user⟩) ∨ k = ⟨t.endFrame, t.storedEnd, .permanent⟩ := by
  simp [keyframes, eq_comm]

/-- **A well-formed track** with a given last frame, in terms of its keyframes: there are at least
two, their frames ascend from `0` to the last frame, those at both ends are permanent and all others
the user's, and an implicit end stores what the start stores. -/
structure WellFormed (t : Track V) (lastFrame : Frame) : Prop where
  two_le_size : 2 ≤ t.size
  ascending : t.frames.Pairwise (· < ·)
  head?_frames : t.frames.head? = some 0
  getLast?_frames : t.frames.getLast? = some lastFrame
  origins : ∀ i k, t.keyframes[i]? = some k →
    k.origin = if i = 0 ∨ i + 1 = t.size then .permanent else .user
  mirrors : t.endMode = .implicit →
    t.keyframes.getLast?.map Keyframe.value = t.keyframes.head?.map Keyframe.value

/-- The frames of a sound track ascend. -/
theorem Sound.pairwise_frames (h : t.Sound) : t.frames.Pairwise (· < ·) := by
  rw [frames_eq, List.pairwise_cons, List.pairwise_append]
  refine ⟨?_, List.pairwise_map.mpr h.ascending, List.pairwise_singleton _ _, ?_⟩
  · -- the start lies before all others
    intro frame h_frame
    rcases List.mem_append.mp h_frame with h_inner | h_end
    · obtain ⟨key, h_key, rfl⟩ := List.mem_map.mp h_inner
      exact (h.between key h_key).1
    · rw [List.mem_singleton.mp h_end]
      exact h.zero_lt_endFrame
  · -- and the end behind the user's
    intro frame h_frame frame' h_frame'
    obtain ⟨key, h_key, rfl⟩ := List.mem_map.mp h_frame
    rw [List.mem_singleton.mp h_frame']
    exact (h.between key h_key).2

/-- No keyframe stands past the end. -/
theorem Sound.le_endFrame (h : t.Sound) : ∀ frame ∈ t.frames, frame ≤ t.endFrame := by
  intro frame h_frame
  simp only [frames_eq, List.mem_cons, List.mem_append, List.mem_map, List.not_mem_nil,
    or_false] at h_frame
  rcases h_frame with rfl | ⟨key, h_key, rfl⟩ | rfl
  · exact Nat.zero_le _
  · exact (h.between key h_key).2.le
  · exact le_rfl

/-- **Soundness is well-formedness** to a reader of the keyframes. -/
theorem Sound.wellFormed (h : t.Sound) : t.WellFormed t.endFrame where
  two_le_size := by
    rw [size_eq]
    exact Nat.le_add_left 2 _
  ascending := h.pairwise_frames
  head?_frames := by rw [frames_eq, List.head?_cons]
  getLast?_frames := by rw [frames_eq, ← List.cons_append, List.getLast?_concat]
  origins := by
    intro i k h_get
    rw [size_eq]
    cases i with
    | zero =>
      obtain rfl : (⟨0, t.start, .permanent⟩ : Keyframe V) = k := by simpa [keyframes] using h_get
      simp
    | succ j =>
      rw [keyframes, List.cons_append, List.getElem?_cons_succ, List.getElem?_append,
        List.length_map] at h_get
      split at h_get
      · next h_lt =>
        rw [List.getElem?_map, Option.map_eq_some_iff] at h_get
        obtain ⟨key, -, rfl⟩ := h_get
        rw [if_neg (by omega)]
      · next h_not =>
        -- behind the user's keyframes there is nothing but the end
        obtain ⟨h_at, h_eq⟩ := List.getElem?_eq_some_iff.mp h_get
        rw [List.length_singleton] at h_at
        rw [List.getElem_singleton] at h_eq
        rw [← h_eq, if_pos (Or.inr (by omega))]
  mirrors h_mode := by
    have h_last : t.keyframes.getLast? = some ⟨t.endFrame, t.storedEnd, .permanent⟩ := by
      rw [keyframes, List.getLast?_concat]
    -- an implicit end stores the start's value, which is the first one shown
    rw [h_last, Option.map_some, h.mirrors h_mode]
    rfl

/-- **The contract of tracks.** Whatever is done to a new track, it stays well-formed over the frames
it was made for. Its end is explicit exactly if it has been written, and then for good. -/
theorem run_create_wellFormed (initial : V) (lastFrame : Frame) (edits : List (Edit V)) :
    ((create initial lastFrame).run edits).WellFormed (max 1 lastFrame) ∧
      (((create initial lastFrame).run edits).endMode = .explicit ↔
        ∃ value, .insert (max 1 lastFrame) value ∈ edits) ∧
      ∀ more, ((create initial lastFrame).run edits).endMode = .explicit →
        ((create initial lastFrame).run (edits ++ more)).endMode = .explicit := by
  have h_end : (create initial lastFrame).endFrame = max 1 lastFrame := max_comm lastFrame 1
  have h_wellFormed := ((Sound.create initial lastFrame).run edits).wellFormed
  -- the mode of the end is a matter of all edits so far
  have h_mode := endMode_run (create initial lastFrame) edits
  rw [endFrame_run, h_end] at h_wellFormed
  rw [h_end] at h_mode
  refine ⟨h_wellFormed, ?_, ?_⟩
  · rw [h_mode]
    simp [create]
  · intro more h_explicit
    rw [run_append, endMode_run]
    exact Or.inl h_explicit

/-- A clip of no length has a track of one step. Its end, once written, keeps its value when the
start moves on, and stays where it is when it is erased. -/
theorem run_create_wellFormed_of_written_end :
    ((create 7 0).run [.insert 1 9]).endMode = .explicit ∧
      ((create 7 0).run ([.insert 1 9] ++ [.insert 0 3, .erase 1])).endMode = .explicit ∧
      ((create 7 0).run ([.insert 1 9] ++ [.insert 0 3, .erase 1])).WellFormed 1 ∧
      ((create 7 0).run ([.insert 1 9] ++ [.insert 0 3, .erase 1])).keyframes =
        [⟨0, 3, .permanent⟩, ⟨1, 9, .permanent⟩] := by
  have h_explicit : ((create 7 0).run [.insert 1 9]).endMode = .explicit := by decide
  obtain ⟨-, -, h_forever⟩ := run_create_wellFormed 7 0 [.insert 1 9]
  obtain ⟨h_wellFormed, -, -⟩ := run_create_wellFormed 7 0 ([.insert 1 9] ++ [.insert 0 3, .erase 1])
  exact ⟨h_explicit, h_forever _ h_explicit, h_wellFormed, by decide⟩

/-! ### The values -/

/-- All values that the track stores have a property. -/
structure Each (P : V → Prop) (t : Track V) : Prop where
  start : P t.start
  inner : ∀ key ∈ t.inner, P key.2
  storedEnd : P t.storedEnd

namespace Each

variable {P : V → Prop}

theorem imp {Q : V → Prop} (h : t.Each P) (h_imp : ∀ value, P value → Q value) : t.Each Q :=
  ⟨h_imp _ h.start, fun key h_key => h_imp _ (h.inner key h_key), h_imp _ h.storedEnd⟩

theorem create (h : P value) (lastFrame : Frame) : (create value lastFrame).Each P :=
  ⟨h, fun _ h_key => absurd h_key List.not_mem_nil, h⟩

theorem insert (h : t.Each P) (h_value : P value) (frame : Frame) :
    (t.insert frame value).state.Each P := by
  rcases t.insert_cases frame value with ⟨-, h_eq⟩ | ⟨-, h_eq⟩ | ⟨-, -, h_eq⟩ | ⟨-, -, h_eq⟩
  · rw [h_eq]
    exact h
  · rw [h_eq]
    exact ⟨h.start, h.inner, h_value⟩
  · rw [h_eq]
    -- an implicit end goes with the start
    refine ⟨h_value, h.inner, ?_⟩
    change P (if t.endMode = .implicit then value else t.storedEnd)
    split
    · exact h_value
    · exact h.storedEnd
  · rw [h_eq]
    refine ⟨h.start, ?_, h.storedEnd⟩
    intro key h_key
    -- every key is the new one or was there before
    rcases mem_insertKey h_key with rfl | h_key
    · exact h_value
    · exact h.inner key h_key

theorem erase (h : t.Each P) (frame : Frame) : (t.erase frame).state.Each P := by
  rcases t.erase_cases frame with h_eq | h_eq
  · rw [h_eq]
    exact h
  · rw [h_eq]
    exact ⟨h.start, fun key h_key => h.inner key (List.mem_of_mem_filter h_key), h.storedEnd⟩

theorem endValue (h : t.Each P) : P t.endValue := by
  rw [Track.endValue]
  split
  · exact h.start
  · exact h.storedEnd

theorem keyframes (h : t.Each P) : ∀ k ∈ t.keyframes, P k.value := by
  intro k h_k
  rcases mem_keyframes.mp h_k with rfl | ⟨key, h_key, rfl⟩ | rfl
  · exact h.start
  · exact h.inner key h_key
  · exact h.storedEnd

/-- What a keyframe shows is stored somewhere. -/
theorem get? (h : t.Each P) (h_get : t.get? frame = some value) : P value := by
  rw [Track.get?] at h_get
  split at h_get
  · exact Option.some.inj h_get ▸ h.endValue
  · split at h_get
    · exact Option.some.inj h_get ▸ h.start
    · obtain ⟨a, b, h_eq, -⟩ := List.lookup_eq_some_iff.mp h_get
      exact h.inner (frame, value) (by rw [h_eq]; simp)

end Each

end Track

end ClipEdit
