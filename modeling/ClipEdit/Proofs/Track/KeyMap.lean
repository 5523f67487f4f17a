import ClipEdit.Proofs.Track.Edits
import Mathlib.Data.Finmap
import Mathlib.Data.Finset.Sort

/-!
# Tracks as finite maps

A track is a list that is kept in order, with a flag for its end and a value stored there that
repeats the start until somebody writes it. What a user of the track has in mind is simpler: a value
at the start, a value at the end once there is one, and a finite map between them. `KeyMap` is that,
and `Refines` says that a track stands for such a map.

The reads of a track do not all take the same way. `Track.get?` asks for the end first and shows a
value that need not be stored, `Track.contains` and `Track.frames` look at what is stored. They agree
because the map that they read is the same one.

* `Refines.perform` — a command has the same answer for both, and leaves a track that stands for the
  map;
* `Refines.agrees` — whatever is read off the track is what the map says;
* `run_create_agrees` — both, after any commands on a new track.
-/

namespace ClipEdit

/-! ### Commands -/

/-- The answers to commands that are carried out or refused one after the other, and the state that
they lead to. -/
def Outcome.runAll {σ γ : Type} (step : σ → γ → Outcome σ) (s : σ) : List γ → List Bool × σ
  | [] => ([], s)
  | c :: rest =>
      let o := step s c
      let r := runAll step o.state rest
      (o.accepted :: r.1, r.2)

/-- What can be asked of a track. -/
inductive Track.Command (V : Type) where
  | add (frame : Frame) (value : V)
  | paste (frame : Frame) (value : V)
  | delete (frame : Frame)
deriving Repr, DecidableEq

/-- The outcome of a command on a track. -/
def Track.perform {V : Type} (t : Track V) : Track.Command V → Outcome (Track V)
  | .add frame value => t.insert frame value
  | .paste frame value => t.paste frame value
  | .delete frame => t.erase frame

/-! ### Key maps -/

/-- **A key map** up to a last frame: a value at the start, one at the end unless the end shows the
start, and values at some of the frames between them. -/
structure KeyMap (V : Type) where
  lastFrame : Frame
  start : V
  /-- The value at the end, once it has one of its own. -/
  stop? : Option V
  between : Finmap fun _ : Frame => V
  zero_lt_lastFrame : 0 < lastFrame
  inside : ∀ frame ∈ between, 0 < frame ∧ frame < lastFrame

namespace KeyMap

variable {V : Type}

/-- A value at the start, and nothing else. -/
def create (initial : V) (lastFrame : Frame) : KeyMap V where
  lastFrame := max 1 lastFrame
  start := initial
  stop? := none
  between := ∅
  zero_lt_lastFrame := le_max_left 1 lastFrame
  inside _ h_mem := absurd h_mem Finmap.notMem_empty

/-- Write a value. Past the last frame this is refused. -/
def write (m : KeyMap V) (frame : Frame) (value : V) : Outcome (KeyMap V) :=
  if h_zero : frame = 0 then .accept { m with start := value }
  else if frame = m.lastFrame then .accept { m with stop? := some value }
  else if h_lt : frame < m.lastFrame then
    .accept { m with
      between := m.between.insert frame value
      inside := by
        intro other h_mem
        rcases Finmap.mem_insert.mp h_mem with rfl | h_mem
        · exact ⟨Nat.pos_of_ne_zero h_zero, h_lt⟩
        · exact m.inside other h_mem }
  else .refuse m

/-- Remove the value at a frame between the two ends. Where there is none, this is refused. -/
def erase (m : KeyMap V) (frame : Frame) : Outcome (KeyMap V) :=
  if frame ∈ m.between then
    .accept { m with
      between := m.between.erase frame
      inside := fun other h_mem => m.inside other (Finmap.mem_erase.mp h_mem).2 }
  else .refuse m

/-- The outcome of a command on a key map. -/
def perform (m : KeyMap V) : Track.Command V → Outcome (KeyMap V)
  | .add frame value => m.write frame value
  | .paste frame value => m.write frame value
  | .delete frame => m.erase frame

/-- The value at the end: that of the start while there is no other. -/
def endValue (m : KeyMap V) : V := m.stop?.getD m.start

/-- The value at a frame, if there is one. -/
def get? (m : KeyMap V) (frame : Frame) : Option V :=
  if frame = 0 then some m.start
  else if frame = m.lastFrame then some m.endValue
  else m.between.lookup frame

/-- The frames that have a value. -/
def domain (m : KeyMap V) : Finset Frame :=
  insert 0 (insert m.lastFrame m.between.keys)

theorem mem_domain {m : KeyMap V} {frame : Frame} :
    frame ∈ m.domain ↔ frame = 0 ∨ frame = m.lastFrame ∨ frame ∈ m.between := by
  simp only [domain, Finset.mem_insert, Finmap.mem_keys]

/-- The domain is where there is something to get. -/
theorem isSome_get? {m : KeyMap V} {frame : Frame} :
    (m.get? frame).isSome = true ↔ frame ∈ m.domain := by
  rw [get?, mem_domain]
  split
  · next h_zero => simp [h_zero]
  · next h_zero =>
    split
    · next h_last => simp [h_last]
    · next h_last => simp [h_zero, h_last, Finmap.lookup_isSome]

end KeyMap

namespace Track

variable {V : Type} {t : Track V} {m : KeyMap V} {frame : Frame} {value : V}

/-! ### The user's keyframes -/

/-- What is filtered out is not found any more, and everything else is found as before. -/
theorem lookup_filter_ne (frame frame' : Frame) (keys : List (Frame × V)) :
    (keys.filter fun key => key.1 != frame).lookup frame' =
      if frame' = frame then none else keys.lookup frame' := by
  induction keys with
  | nil => simp
  | cons first rest ih =>
    rw [List.filter_cons]
    split
    · next h_keep =>
      -- a key of another frame is kept
      have h_ne : first.1 ≠ frame := by simpa using h_keep
      rw [lookup_cons_eq, lookup_cons_eq, ih]
      by_cases h : frame' = frame
      · rw [if_pos h, if_pos h, if_neg (h ▸ h_ne.symm)]
      · rw [if_neg h, if_neg h]
    · next h_drop =>
      -- a key of the frame itself is dropped, and so is any further one
      have h_eq : first.1 = frame := by simpa using h_drop
      rw [lookup_cons_eq, ih, h_eq]
      by_cases h : frame' = frame
      · rw [if_pos h, if_pos h]
      · rw [if_neg h, if_neg h, if_neg h]

theorem mem_map_fst {keys : List (Frame × V)} :
    frame ∈ keys.map Prod.fst ↔ (keys.lookup frame).isSome = true := by
  rw [List.lookup_isSome_iff, List.mem_map]
  simp only [beq_iff_eq]
  exact exists_congr fun key => and_congr_right fun _ => eq_comm

/-! ### Tracks that stand for a map -/

/-- **A track that stands for a key map**: what it stores is what the map holds, and what it repeats
or flags follows from that. -/
structure Refines (t : Track V) (m : KeyMap V) : Prop where
  sound : t.Sound
  endFrame_eq : t.endFrame = m.lastFrame
  start_eq : t.start = m.start
  stop?_eq : m.stop? = if t.endMode = .explicit then some t.storedEnd else none
  lookup_eq : ∀ frame, t.inner.lookup frame = m.between.lookup frame

namespace Refines

theorem create (initial : V) (lastFrame : Frame) :
    (create initial lastFrame).Refines (.create initial lastFrame) where
  sound := .create initial lastFrame
  endFrame_eq := max_comm lastFrame 1
  start_eq := rfl
  stop?_eq := rfl
  lookup_eq frame := by
    change none = (∅ : Finmap fun _ : Frame => V).lookup frame
    rw [Finmap.lookup_empty]

theorem write (h : t.Refines m) (frame : Frame) (value : V) :
    (t.insert frame value).accepted = (m.write frame value).accepted ∧
      (t.insert frame value).state.Refines (m.write frame value).state := by
  have h_sound : (t.insert frame value).state.Sound := h.sound.apply (.insert frame value)
  have h_pos := m.zero_lt_lastFrame
  rcases t.insert_cases frame value with ⟨h_at, h_eq⟩ | ⟨h_at, h_eq⟩ | ⟨h_at, -, h_eq⟩ |
    ⟨h_zero, h_lt, h_eq⟩
  · -- past the end
    rw [h.endFrame_eq] at h_at
    have h_write : m.write frame value = .refuse m := by
      rw [KeyMap.write, dif_neg (h_pos.trans h_at).ne', if_neg h_at.ne', dif_neg h_at.not_gt]
    rw [h_eq, h_write]
    exact ⟨rfl, h⟩
  · -- at the end, which has a value of its own from now on
    rw [h.endFrame_eq] at h_at
    have h_write : m.write frame value = .accept { m with stop? := some value } := by
      rw [KeyMap.write, dif_neg (h_at ▸ h_pos.ne'), if_pos h_at]
    rw [h_eq] at h_sound ⊢
    rw [h_write]
    exact ⟨rfl, h_sound, h.endFrame_eq, h.start_eq, rfl, h.lookup_eq⟩
  · -- at the start
    have h_write : m.write frame value = .accept { m with start := value } := dif_pos h_at
    rw [h_eq] at h_sound ⊢
    rw [h_write]
    refine ⟨rfl, h_sound, h.endFrame_eq, rfl, ?_, h.lookup_eq⟩
    change m.stop? = if t.endMode = .explicit then
      some (if t.endMode = .implicit then value else t.storedEnd) else none
    -- what an implicit end repeats is no value of its own
    rw [h.stop?_eq]
    cases t.endMode <;> rfl
  · -- between the two
    rw [h.endFrame_eq] at h_lt
    rw [h_eq] at h_sound ⊢
    rw [KeyMap.write, dif_neg h_zero.ne', if_neg h_lt.ne, dif_pos h_lt]
    refine ⟨rfl, h_sound, h.endFrame_eq, h.start_eq, h.stop?_eq, fun frame' => ?_⟩
    change (insertKey frame value t.inner).lookup frame' =
      (m.between.insert frame value).lookup frame'
    rw [lookup_insertKey]
    split
    · next h_same => rw [h_same, Finmap.lookup_insert]
    · next h_other => rw [Finmap.lookup_insert_of_ne _ h_other, h.lookup_eq]

theorem erase (h : t.Refines m) (frame : Frame) :
    (t.erase frame).accepted = (m.erase frame).accepted ∧
      (t.erase frame).state.Refines (m.erase frame).state := by
  have h_sound : (t.erase frame).state.Sound := h.sound.apply (.erase frame)
  have h_iff : (t.inner.lookup frame).isSome = true ↔ frame ∈ m.between := by
    rw [h.lookup_eq, Finmap.lookup_isSome]
  rw [Track.erase] at h_sound ⊢
  rw [KeyMap.erase]
  by_cases h_mem : frame ∈ m.between
  · rw [if_pos (h_iff.mpr h_mem)] at h_sound ⊢
    rw [if_pos h_mem]
    refine ⟨rfl, h_sound, h.endFrame_eq, h.start_eq, h.stop?_eq, fun frame' => ?_⟩
    -- both sides lose the value at the frame and no other
    change (t.inner.filter fun key => key.1 != frame).lookup frame' =
      (m.between.erase frame).lookup frame'
    rw [lookup_filter_ne]
    split
    · next h_same => rw [h_same, Finmap.lookup_erase]
    · next h_other => rw [Finmap.lookup_erase_ne h_other, h.lookup_eq]
  · rw [if_neg (mt h_iff.mp h_mem), if_neg h_mem]
    exact ⟨rfl, h⟩

/-- **A command is answered alike**, and leaves a track that stands for the map. -/
theorem perform (h : t.Refines m) (c : Command V) :
    (t.perform c).accepted = (m.perform c).accepted ∧
      (t.perform c).state.Refines (m.perform c).state := by
  cases c with
  | add frame value => exact h.write frame value
  | paste frame value => exact h.write frame value
  | delete frame => exact h.erase frame

/-- **So are all commands, one after the other.** -/
theorem runAll (h : t.Refines m) (commands : List (Command V)) :
    (Outcome.runAll Track.perform t commands).1 = (Outcome.runAll KeyMap.perform m commands).1 ∧
      (Outcome.runAll Track.perform t commands).2.Refines
        (Outcome.runAll KeyMap.perform m commands).2 := by
  induction commands generalizing t m with
  | nil => exact ⟨rfl, h⟩
  | cons c rest ih =>
    obtain ⟨h_answer, h_next⟩ := h.perform c
    obtain ⟨h_answers, h_last⟩ := ih h_next
    exact ⟨congrArg₂ List.cons h_answer h_answers, h_last⟩

/-! ### Reading a track -/

theorem endValue_eq (h : t.Refines m) : t.endValue = m.endValue := by
  rw [endValue, KeyMap.endValue, h.stop?_eq, ← h.start_eq]
  cases t.endMode <;> rfl

theorem get?_eq (h : t.Refines m) (frame : Frame) : t.get? frame = m.get? frame := by
  have h_pos := m.zero_lt_lastFrame
  rw [get?, KeyMap.get?, h.endFrame_eq, h.endValue_eq, h.start_eq, h.lookup_eq]
  by_cases h_zero : frame = 0
  · -- the two ask for the start and the end in another order, but these are never the same
    rw [if_neg (h_zero ▸ h_pos.ne), if_pos h_zero, if_pos h_zero]
  · rw [if_neg h_zero, if_neg h_zero]

theorem contains_eq (h : t.Refines m) (frame : Frame) :
    t.contains frame = decide (frame ∈ m.domain) := by
  rw [Bool.eq_iff_iff, decide_eq_true_iff, KeyMap.mem_domain, ← Finmap.lookup_isSome,
    ← h.lookup_eq, ← h.endFrame_eq, contains]
  simp only [Bool.or_eq_true, beq_iff_eq, or_assoc]

/-- The frames of a track are those of the map, each of them once. -/
theorem toFinset_frames (h : t.Refines m) : t.frames.toFinset = m.domain := by
  ext frame
  rw [List.mem_toFinset, frames_eq, List.mem_cons, List.mem_append, List.mem_singleton, mem_map_fst,
    KeyMap.mem_domain, h.lookup_eq, Finmap.lookup_isSome, h.endFrame_eq, or_comm (a := frame ∈ _)]

theorem frames_eq_sort (h : t.Refines m) : t.frames = m.domain.sort := by
  -- a set has only one list that ascends
  have h_ascending := h.sound.pairwise_frames
  have h_nodup : t.frames.Nodup := h_ascending.imp ne_of_lt
  rw [← h.toFinset_frames]
  exact ((List.toFinset_sort _ h_nodup).mpr (h_ascending.imp le_of_lt)).symm

theorem size_eq_card (h : t.Refines m) : t.size = m.domain.card := by
  have h_length : t.frames.length = t.size := List.length_map _
  rw [← h_length, h.frames_eq_sort, Finset.length_sort]

end Refines

/-- **A track that agrees with a key map** in everything that can be read off it. -/
structure Agrees (t : Track V) (m : KeyMap V) : Prop where
  get? : ∀ frame, t.get? frame = m.get? frame
  copy? : ∀ frame, t.copy? frame = m.get? frame
  contains : ∀ frame, t.contains frame = decide (frame ∈ m.domain)
  frames : t.frames = m.domain.sort
  size : t.size = m.domain.card
  start : t.start = m.start
  endValue : t.endValue = m.endValue

/-- **What can be read off a track is what its map says.** -/
theorem Refines.agrees (h : t.Refines m) : t.Agrees m where
  get? := h.get?_eq
  copy? := h.get?_eq
  contains := h.contains_eq
  frames := h.frames_eq_sort
  size := h.size_eq_card
  start := h.start_eq
  endValue := h.endValue_eq

/-- There is a value at the frames of a track, and nowhere else. -/
theorem Agrees.isSome_get? (h : t.Agrees m) (frame : Frame) :
    ((t.get? frame).isSome = true ↔ t.contains frame = true) ∧
      (t.contains frame = true ↔ frame ∈ t.frames) := by
  have h_contains : t.contains frame = true ↔ frame ∈ m.domain := by
    rw [h.contains, decide_eq_true_iff]
  rw [h.get?, KeyMap.isSome_get?, h_contains, h.frames, Finset.mem_sort]
  exact ⟨Iff.rfl, Iff.rfl⟩

/-- **Tracks are finite maps.** Whatever is asked of a new track, it gives the answers that a key map
gives, and reads like that map afterwards. In particular, it has a value at exactly the frames that
it says it has keyframes at, and these are the frames that it lists. -/
theorem run_create_agrees (initial : V) (lastFrame : Frame) (commands : List (Command V)) :
    let track := Outcome.runAll Track.perform (create initial lastFrame) commands
    let map := Outcome.runAll KeyMap.perform (.create initial lastFrame) commands
    track.1 = map.1 ∧ track.2.Agrees map.2 ∧
      ∀ frame, ((track.2.get? frame).isSome = true ↔ track.2.contains frame = true) ∧
        (track.2.contains frame = true ↔ frame ∈ track.2.frames) := by
  intro track map
  obtain ⟨h_answers, h_refines⟩ := (Refines.create initial lastFrame).runAll commands
  exact ⟨h_answers, h_refines.agrees, h_refines.agrees.isSome_get?⟩

end Track

end ClipEdit
