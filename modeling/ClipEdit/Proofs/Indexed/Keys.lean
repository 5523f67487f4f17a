import ClipEdit.Clip.Export
import ClipEdit.Proofs.Indexed.Checked
import ClipEdit.Proofs.Track.Edits
import ClipEdit.Track.Marker

/-!
# Tracks as rows of keyframes

A track keeps its two permanent keyframes apart from those of the user, so it cannot be without
them. `KeyRow` is the track of a program that keeps all keyframes in one row and finds its way
around by position: the start is at position `0`, the end at the last one, and a frame is looked up
by halving the row (`bisect`). Blending reads the keyframe before the place that was found, and
divides by the distance of its neighbours.

None of this goes wrong on the row of a sound track, and the outcome is that of the track. A frame
falls on the start, on a keyframe of the user, into a gap between two neighbours, on the end or
behind it (`Falls`), and each way determines the place at which the search ends (`Sound.slot_eq`).
-/

namespace ClipEdit

open Scalar Checked

/-- A track as one row of keyframes. -/
structure KeyRow (V : Type) where
  keys : List (Keyframe V)
  endMode : EndMode
deriving Repr, DecidableEq

/-- The row of a track. -/
def Track.row {V : Type} (t : Track V) : KeyRow V := ⟨t.keyframes, t.endMode⟩

@[simp] theorem Track.keys_row {V : Type} (t : Track V) : t.row.keys = t.keyframes := rfl

@[simp] theorem Track.endMode_row {V : Type} (t : Track V) : t.row.endMode = t.endMode := rfl

/-- What a search for a frame comes to. -/
inductive Slot where
  /-- The keyframe at a position stands at the frame. -/
  | taken (position : Nat)
  /-- There is none; it would have to go to a position. -/
  | free (position : Nat)
deriving Repr, DecidableEq

namespace KeyRow

variable {V : Type}

/-! ### Reading -/

/-- The row of a new track. -/
def create (initial : V) (lastFrame : Frame) : KeyRow V where
  keys := [⟨0, initial, .permanent⟩, ⟨max lastFrame 1, initial, .permanent⟩]
  endMode := .implicit

/-- The frame of the last keyframe. -/
def endFrame (r : KeyRow V) : Checked Frame := do
  return (← readLast r.keys).frame

/-- The value of the first keyframe. -/
def startValue (r : KeyRow V) : Checked V := do
  return (← read r.keys 0).value

/-- The value that the last keyframe shows. -/
def endValue (r : KeyRow V) : Checked V :=
  match r.endMode with
  | .implicit => r.startValue
  | .explicit => do return (← readLast r.keys).value

/-- Look for a frame among the keyframes from position `lo` up to `hi`, by halving. -/
def bisect (keys : List (Keyframe V)) (frame : Frame) (lo hi : Nat) : Checked Slot :=
  if h_lt : lo < hi then do
    let middle := (lo + hi) / 2
    let key ← read keys middle
    if key.frame < frame then bisect keys frame (middle + 1) hi
    else if frame < key.frame then bisect keys frame lo middle
    else return .taken middle
  else return .free lo
termination_by hi - lo

/-- Look for a frame in the whole row. -/
def slot (r : KeyRow V) (frame : Frame) : Checked Slot := bisect r.keys frame 0 r.keys.length

/-- The value that the keyframe at a frame shows, if there is one. -/
def get? (r : KeyRow V) (frame : Frame) : Checked (Option V) := do
  if frame = (← r.endFrame) then return some (← r.endValue)
  else match ← r.slot frame with
    | .taken i => return some (← read r.keys i).value
    | .free _ => return none

/-- Is there a keyframe at the frame? -/
def contains (r : KeyRow V) (frame : Frame) : Checked Bool := do
  match ← r.slot frame with
  | .taken _ => return true
  | .free _ => return false

/-- All keyframes as they are shown. -/
def shown (r : KeyRow V) : Checked (List (FrameValue V)) := do
  let endFrame ← r.endFrame
  r.keys.mapM fun k =>
    if k.frame = endFrame then do return ⟨k.frame, ← r.endValue⟩
    else return ⟨k.frame, k.value⟩

/-! ### Editing -/

/-- Write a value at a frame, over the keyframe there or as a new one. -/
def write (r : KeyRow V) (frame : Frame) (value : V) : Checked (KeyRow V) := do
  match ← r.slot frame with
  | .taken i =>
      let keys ← rewrite r.keys i fun k => { k with value }
      return { r with keys }
  | .free i =>
      let keys ← insertAt r.keys i ⟨frame, value, .user⟩
      return { r with keys }

/-- Let the last keyframe store what the first one does. -/
def follow (r : KeyRow V) : Checked (KeyRow V) := do
  let value ← r.startValue
  let keys ← rewriteLast r.keys fun k => { k with value }
  return { r with keys }

/-- Write a value at a frame. The end becomes explicit when it is written, and follows the start
when it is not explicit. -/
def insert (r : KeyRow V) (frame : Frame) (value : V) : Checked (Outcome (KeyRow V)) := do
  let endFrame ← r.endFrame
  if endFrame < frame then return .refuse r
  else if frame = endFrame then
    let keys ← rewriteLast r.keys fun k => { k with value }
    return .accept ⟨keys, .explicit⟩
  else
    let written ← r.write frame value
    if frame = 0 ∧ r.endMode = .implicit then return .accept (← written.follow)
    else return .accept written

/-- Remove the keyframe at a frame, if it belongs to the user. -/
def erase (r : KeyRow V) (frame : Frame) : Checked (Outcome (KeyRow V)) := do
  match ← r.slot frame with
  | .taken i =>
      if (← read r.keys i).origin = .user then
        let removed ← removeAt r.keys i
        return .accept { r with keys := removed.2 }
      else return .refuse r
  | .free _ => return .refuse r

section Scalars

variable {α : Type} [Scalar α]

/-- The value of the keyframe that a time falls on. -/
def valueAt? (r : KeyRow V) (time : α) (fps : Nat) : Checked (Option V) :=
  let exact := time * (fps : α)
  let nearest := roundWhole exact
  if nearest < 0 ∨ Track.frameTolerance < magnitude (exact - nearest) then return none
  else r.get? (toFrame nearest)

/-- The value at a frame. A free place has a keyframe before it, since the row begins at frame `0`,
and another one behind it, unless the frame lies past the end. -/
def sample [Blend α V] (r : KeyRow V) (frame : Frame) : Checked V := do
  match ← r.slot frame with
  | .taken i =>
      if i = (← minus r.keys.length 1) then r.endValue
      else return (← read r.keys i).value
  | .free i =>
      if r.keys.length ≤ i then r.endValue
      else
        let previous ← read r.keys (← minus i 1)
        let next ← read r.keys i
        let passed ← minus frame previous.frame
        let length ← gap next.frame previous.frame
        return Blend.blend previous.value next.value ((passed : α) / (length : α))

/-- The index of the keyframe under the pointer. -/
def markerAt (settings : Settings α) (r : KeyRow V) (pointer width : α) : Checked (Option Nat) := do
  return Track.nearestMarker (r.keys.map Keyframe.frame) pointer width (← r.endFrame)
    settings.hitRadiusFraction

end Scalars

/-! ### Searching -/

section Search

variable {keys a b : List (Keyframe V)} {k : Keyframe V} {frame : Frame} {lo hi : Nat}

/-- One step of the search reads an item of the row. -/
theorem bisect_step (h_lt : lo < hi) (h_hi : hi ≤ keys.length) (frame : Frame) :
    ∃ key, keys[(lo + hi) / 2]? = some key ∧ bisect keys frame lo hi =
      if key.frame < frame then bisect keys frame ((lo + hi) / 2 + 1) hi
      else if frame < key.frame then bisect keys frame lo ((lo + hi) / 2)
      else .ok (.taken ((lo + hi) / 2)) := by
  have h_middle : (lo + hi) / 2 < keys.length := by omega
  refine ⟨_, List.getElem?_eq_getElem h_middle, ?_⟩
  rw [bisect, dif_pos h_lt]
  dsimp only
  rw [read_eq (List.getElem?_eq_getElem h_middle), ok_bind]
  rfl

/-- **A frame that is taken**: the search keeps its position between `lo` and `hi`. -/
theorem bisect_taken (h_frame : k.frame = frame) (ha : ∀ x ∈ a, x.frame < frame)
    (hb : ∀ x ∈ b, frame < x.frame) (h_lo : lo ≤ a.length) (h_hi : a.length < hi)
    (h_length : hi ≤ (a ++ k :: b).length) :
    bisect (a ++ k :: b) frame lo hi = .ok (.taken a.length) := by
  -- the part that is left to search shrinks, and the place of `k` stays in it
  induction h_size : hi - lo using Nat.strong_induction_on generalizing lo hi with
  | _ n ih =>
    obtain ⟨key, h_key, h_step⟩ := bisect_step (lt_of_le_of_lt h_lo h_hi) h_length frame
    rw [h_step]
    rcases lt_trichotomy ((lo + hi) / 2) a.length with h_left | h_here | h_right
    · have h_mem : key ∈ a := by
        rcases read_cases h_key with ⟨-, h_mem⟩ | ⟨h_ge, -⟩
        · exact h_mem
        · omega
      rw [if_pos (ha key h_mem)]
      exact ih _ (by omega) h_left h_hi h_length rfl
    · -- the middle is the place itself
      obtain rfl : k = key := by simpa [h_here] using h_key
      rw [if_neg h_frame.not_lt, if_neg h_frame.not_gt, h_here]
    · have h_mem : key ∈ b := by
        have h_cut : ((a ++ [k]) ++ b)[(lo + hi) / 2]? = some key := by simpa using h_key
        rcases read_cases h_cut with ⟨h_le, -⟩ | ⟨-, h_mem⟩
        · rw [List.length_append, List.length_singleton] at h_le
          omega
        · exact h_mem
      rw [if_neg (hb key h_mem).not_gt, if_pos (hb key h_mem)]
      exact ih _ (by omega) h_lo h_right (by omega) rfl

/-- **A frame that is free**: the search ends between the keyframes before it and those behind
it. -/
theorem bisect_free (ha : ∀ x ∈ a, x.frame < frame) (hb : ∀ x ∈ b, frame < x.frame)
    (h_lo : lo ≤ a.length) (h_hi : a.length ≤ hi) (h_length : hi ≤ (a ++ b).length) :
    bisect (a ++ b) frame lo hi = .ok (.free a.length) := by
  induction h_size : hi - lo using Nat.strong_induction_on generalizing lo hi with
  | _ n ih =>
    by_cases h_lt : lo < hi
    · obtain ⟨key, h_key, h_step⟩ := bisect_step h_lt h_length frame
      rw [h_step]
      rcases read_cases h_key with ⟨h_left, h_mem⟩ | ⟨h_right, h_mem⟩
      · rw [if_pos (ha key h_mem)]
        exact ih _ (by omega) h_left h_hi h_length rfl
      · rw [if_neg (hb key h_mem).not_gt, if_pos (hb key h_mem)]
        exact ih _ (by omega) h_lo h_right (by omega) rfl
    · -- nothing is left between `lo` and `hi`
      have h_eq : lo = a.length := by omega
      rw [bisect, dif_neg h_lt, h_eq]
      rfl

end Search

end KeyRow

/-! ### Where a frame falls -/

namespace Track

variable {V : Type} {t : Track V} {frame : Frame} {value : V}

/-- A keyframe of the user, as it stands in the row. -/
def userKey (key : Frame × V) : Keyframe V := ⟨key.1, key.2, .user⟩

theorem keyframes_eq (t : Track V) : t.keyframes =
    ⟨0, t.start, .permanent⟩ :: t.inner.map userKey ++ [⟨t.endFrame, t.storedEnd, .permanent⟩] :=
  rfl

/-- **The ways in which a frame falls** on a track: on one of its keyframes, between two of them, or
past the last one. -/
inductive Falls (t : Track V) (frame : Frame) : Prop
  | onStart (h_frame : frame = 0)
  | onKey (u : List (Frame × V)) (value : V) (w : List (Frame × V))
      (h_inner : t.inner = u ++ (frame, value) :: w) (hu : ∀ key ∈ u, key.1 < frame)
      (hw : ∀ key ∈ w, frame < key.1) (h_pos : 0 < frame) (h_lt : frame < t.endFrame)
  | inGap (u w : List (Frame × V)) (h_inner : t.inner = u ++ w) (hu : ∀ key ∈ u, key.1 < frame)
      (hw : ∀ key ∈ w, frame < key.1) (h_pos : 0 < frame) (h_lt : frame < t.endFrame)
  | onEnd (h_frame : frame = t.endFrame)
  | past (h_past : t.endFrame < frame)

/-- Keyframes that ascend are parted by a frame. -/
theorem exists_parts {keys : List (Frame × V)} (h : keys.Pairwise fun a b => a.1 < b.1)
    (frame : Frame) :
    ∃ u m w, keys = u ++ m ++ w ∧ (∀ key ∈ u, key.1 < frame) ∧ (∀ key ∈ w, frame < key.1) ∧
      (m = [] ∨ ∃ value, m = [(frame, value)]) := by
  induction keys with
  | nil => exact ⟨[], [], [], rfl, by simp, by simp, Or.inl rfl⟩
  | cons first rest ih =>
    obtain ⟨h_first, h_rest⟩ := List.pairwise_cons.mp h
    rcases lt_trichotomy first.1 frame with h_lt | h_eq | h_gt
    · -- the first one lies before the frame, and the rest is parted already
      obtain ⟨u, m, w, rfl, hu, hw, hm⟩ := ih h_rest
      exact ⟨first :: u, m, w, rfl, List.forall_mem_cons.mpr ⟨h_lt, hu⟩, hw, hm⟩
    · subst h_eq
      exact ⟨[], [first], rest, rfl, by simp, h_first, Or.inr ⟨first.2, rfl⟩⟩
    · refine ⟨[], [], first :: rest, rfl, by simp, ?_, Or.inl rfl⟩
      exact List.forall_mem_cons.mpr ⟨h_gt, fun key h_key => h_gt.trans (h_first key h_key)⟩

theorem Sound.falls (h : t.Sound) (frame : Frame) : t.Falls frame := by
  rcases Nat.eq_zero_or_pos frame with h_zero | h_pos
  · exact .onStart h_zero
  · rcases lt_trichotomy frame t.endFrame with h_lt | h_eq | h_gt
    · obtain ⟨u, m, w, h_inner, hu, hw, rfl | ⟨value, rfl⟩⟩ := exists_parts h.ascending frame
      · exact .inGap u w (by simpa using h_inner) hu hw h_pos h_lt
      · exact .onKey u value w (by simpa using h_inner) hu hw h_pos h_lt
    · exact .onEnd h_eq
    · exact .past h_gt

/-! ### The user's keyframes, parted by a frame -/

section Parts

variable {u w : List (Frame × V)} {old : V}

theorem lookup_place (hu : ∀ key ∈ u, key.1 < frame) :
    (u ++ (frame, value) :: w).lookup frame = some value := by
  induction u with
  | nil => rw [List.nil_append, lookup_cons_eq, if_pos rfl]
  | cons first rest ih =>
    obtain ⟨h_first, h_rest⟩ := List.forall_mem_cons.mp hu
    rw [List.cons_append, lookup_cons_eq, if_neg h_first.ne', ih h_rest]

theorem lookup_eq_none (h : ∀ key ∈ u, key.1 ≠ frame) : u.lookup frame = none := by
  refine List.lookup_eq_none_iff.mpr ?_
  intro key h_key
  simpa using (h key h_key).symm

theorem insertKey_place (hu : ∀ key ∈ u, key.1 < frame) :
    insertKey frame value (u ++ (frame, old) :: w) = u ++ (frame, value) :: w := by
  induction u with
  | nil => rw [List.nil_append, insertKey, if_neg (lt_irrefl frame), if_pos rfl, List.nil_append]
  | cons first rest ih =>
    obtain ⟨h_first, h_rest⟩ := List.forall_mem_cons.mp hu
    rw [List.cons_append, insertKey, if_neg h_first.not_gt, if_neg h_first.ne', ih h_rest,
      List.cons_append]

theorem insertKey_gap (hu : ∀ key ∈ u, key.1 < frame) (hw : ∀ key ∈ w, frame < key.1) :
    insertKey frame value (u ++ w) = u ++ (frame, value) :: w := by
  induction u with
  | nil =>
    cases w with
    | nil => rfl
    | cons first rest => rw [List.nil_append, insertKey, if_pos (hw first List.mem_cons_self),
        List.nil_append]
  | cons first rest ih =>
    obtain ⟨h_first, h_rest⟩ := List.forall_mem_cons.mp hu
    rw [List.cons_append, insertKey, if_neg h_first.not_gt, if_neg h_first.ne', ih h_rest,
      List.cons_append]

theorem filter_place (hu : ∀ key ∈ u, key.1 < frame) (hw : ∀ key ∈ w, frame < key.1) :
    ((u ++ (frame, value) :: w).filter fun key => key.1 != frame) = u ++ w := by
  have h_keep : ∀ keys : List (Frame × V), (∀ key ∈ keys, key.1 ≠ frame) →
      (keys.filter fun key => key.1 != frame) = keys := by
    intro keys h_keys
    exact List.filter_eq_self.mpr fun key h_key => by simpa using h_keys key h_key
  rw [List.filter_append, List.filter_cons_of_neg (by simp),
    h_keep u fun key h_key => (hu key h_key).ne, h_keep w fun key h_key => (hw key h_key).ne']

end Parts

/-! ### Blending along the row -/

section Blending

variable {α : Type} [Scalar α] [Blend α V] {a b p : List (Keyframe V)}
  {last k next previous : Keyframe V}

theorem sampleFrom_taken (h_frame : k.frame = frame) (ha : ∀ x ∈ a, x.frame < frame) :
    sampleFrom frame last (a ++ k :: b) = k.value := by
  induction a generalizing last with
  | nil => rw [List.nil_append, sampleFrom, if_neg h_frame.not_gt, if_pos h_frame.symm]
  | cons first rest ih =>
    obtain ⟨h_first, h_rest⟩ := List.forall_mem_cons.mp ha
    rw [List.cons_append, sampleFrom, if_neg h_first.not_gt, if_neg h_first.ne', ih h_rest]

/-- The keyframe before a gap is the last one that the scan has passed. -/
theorem sampleFrom_free (ha : ∀ x ∈ a, x.frame < frame) (h_next : frame < next.frame)
    (h_passed : last :: a = p ++ [previous]) :
    sampleFrom frame last (a ++ next :: b) = Blend.blend previous.value next.value
      (((frame - previous.frame : Nat) : α) / ((next.frame - previous.frame : Nat) : α)) := by
  induction a generalizing last p with
  | nil =>
    -- nothing stands between the last keyframe that was passed and the next one
    obtain ⟨rfl, rfl⟩ : p = [] ∧ last = previous := by
      rcases p with _ | ⟨x, p⟩
      · simpa using h_passed
      · simp at h_passed
    rw [List.nil_append, sampleFrom, if_pos h_next]
  | cons first rest ih =>
    -- one more keyframe is passed, and it takes the place of the last one
    obtain ⟨h_first, h_rest⟩ := List.forall_mem_cons.mp ha
    -- the previous one is still the last of what is passed
    obtain ⟨p', h_rest_passed⟩ : ∃ p', first :: rest = p' ++ [previous] := by
      rcases p with _ | ⟨x, p⟩
      · simp at h_passed
      · exact ⟨p, (List.cons.inj h_passed).2⟩
    rw [List.cons_append, sampleFrom, if_neg h_first.not_gt, if_neg h_first.ne',
      ih h_rest h_rest_passed]

end Blending

/-! ### The row of a sound track -/

/-- The row up to some of the user's keyframes. -/
def before (t : Track V) (u : List (Frame × V)) : List (Keyframe V) :=
  ⟨0, t.start, .permanent⟩ :: u.map userKey

/-- The row from some of the user's keyframes on. -/
def behind (t : Track V) (w : List (Frame × V)) : List (Keyframe V) :=
  w.map userKey ++ [⟨t.endFrame, t.storedEnd, .permanent⟩]

section Rows

variable {u w : List (Frame × V)} {key : Frame × V}

theorem keyframes_gap (h : t.inner = u ++ w) : t.keyframes = t.before u ++ t.behind w := by
  simp [keyframes_eq, before, behind, h]

theorem keyframes_key (h : t.inner = u ++ key :: w) :
    t.keyframes = t.before u ++ userKey key :: t.behind w := by
  simp [keyframes_eq, before, behind, h]

theorem keyframes_start (t : Track V) :
    t.keyframes = ⟨0, t.start, .permanent⟩ :: t.behind t.inner := rfl

theorem keyframes_end (t : Track V) :
    t.keyframes = t.before t.inner ++ [⟨t.endFrame, t.storedEnd, .permanent⟩] := rfl

theorem before_lt (hu : ∀ key ∈ u, key.1 < frame) (h_pos : 0 < frame) :
    ∀ k ∈ t.before u, k.frame < frame := by
  refine List.forall_mem_cons.mpr ⟨h_pos, ?_⟩
  intro k hk
  obtain ⟨key, h_key, rfl⟩ := List.mem_map.mp hk
  exact hu key h_key

theorem lt_behind (hw : ∀ key ∈ w, frame < key.1) (h_lt : frame < t.endFrame) :
    ∀ k ∈ t.behind w, frame < k.frame := by
  intro k hk
  rcases List.mem_append.mp hk with hk | hk
  · obtain ⟨key, h_key, rfl⟩ := List.mem_map.mp hk
    exact hw key h_key
  · rw [List.mem_singleton.mp hk]
    exact h_lt

end Rows

end Track

end ClipEdit
