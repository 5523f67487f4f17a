import ClipEdit.Proofs.Track.KeyMap

/-!
# The order of edits

Two commands that are aimed at different frames of a track may be given in either order. That is not
plain from what they do. A write at the start also moves an end that follows it, a write at the end
stops the end from following, and a write between the two shifts all keyframes behind it.

It holds because a command is local, once a track is read in the right way. `own?` is the value that
was written for a frame; an end that follows the start has none, since what it stores was written
for the start. A command reads the value of its own frame and changes that value, and no other one:

* `Command.onOwn` — what a command makes of the value of its frame, and what it answers;
* `Sound.accepted_perform`, `Sound.own?_perform` — that is all it does to a sound track;
* `Sound.ext` — a sound track is determined by the values that its frames have of their own.

From these three alone, two commands at different frames commute (`Sound.perform_comm`), each of them
is answered as if the other one had not been given (`Sound.accepted_perform_perform`), and a list of
commands at different frames may be given in any order (`Sound.runAll_perm`, `commands_commute`).
-/

namespace ClipEdit

namespace Track

variable {V : Type} {t t' : Track V} {value : V}

/-! ### Commands -/

namespace Command

/-- The frame that a command is aimed at. -/
def frame : Command V → Frame
  | .add frame _ => frame
  | .paste frame _ => frame
  | .delete frame => frame

/-- The edit that a command stands for. -/
def toEdit : Command V → Edit V
  | .add frame value => .insert frame value
  | .paste frame value => .insert frame value
  | .delete frame => .erase frame

/-- **What a command makes of the value of its own frame**, in a track with a given last frame: a
write replaces it unless the frame lies past the end, and a deletion takes it away if the frame lies
between the two ends and has a value. -/
def onOwn (c : Command V) (endFrame : Frame) (old : Option V) : Outcome (Option V) :=
  match c with
  | .add frame value => if frame ≤ endFrame then .accept (some value) else .refuse old
  | .paste frame value => if frame ≤ endFrame then .accept (some value) else .refuse old
  | .delete frame =>
      if 0 < frame ∧ frame < endFrame ∧ old.isSome then .accept none else .refuse old

end Command

theorem perform_eq_apply (t : Track V) (c : Command V) : t.perform c = t.apply c.toEdit := by
  cases c <;> rfl

@[simp] theorem endFrame_perform (t : Track V) (c : Command V) :
    (t.perform c).state.endFrame = t.endFrame := by
  rw [perform_eq_apply, endFrame_apply]

theorem Sound.perform (h : t.Sound) (c : Command V) : (t.perform c).state.Sound := by
  rw [perform_eq_apply]
  exact h.apply c.toEdit

/-! ### The values that frames have of their own -/

section Own

variable {frame : Frame}

/-- The value that was written for a frame, if there is one. The start has one always, the end from
the first time that it is written. -/
def own? (t : Track V) (frame : Frame) : Option V :=
  if frame = 0 then some t.start
  else if frame = t.endFrame then
    match t.endMode with
    | .implicit => none
    | .explicit => some t.storedEnd
  else t.inner.lookup frame

theorem own?_zero (t : Track V) : t.own? 0 = some t.start := if_pos rfl

/-- Between the two ends a frame has what the user's keyframe there has. -/
theorem own?_between (h_pos : 0 < frame) (h_lt : frame < t.endFrame) :
    t.own? frame = t.inner.lookup frame := by
  rw [own?, if_neg h_pos.ne', if_neg h_lt.ne]

theorem own?_endFrame (h : t.Sound) : t.own? t.endFrame =
    match t.endMode with
    | .implicit => none
    | .explicit => some t.storedEnd := by
  rw [own?, if_neg h.zero_lt_endFrame.ne', if_pos rfl]

/-- In a list of keyframes that ascend, the keyframe that is looked up is the only one there. -/
theorem lookup_eq_some_iff_mem {keys : List (Frame × V)}
    (h : keys.Pairwise fun a b => a.1 < b.1) :
    keys.lookup frame = some value ↔ (frame, value) ∈ keys := by
  induction keys with
  | nil => simp
  | cons first rest ih =>
    obtain ⟨h_first, h_rest⟩ := List.pairwise_cons.mp h
    rw [lookup_cons_eq, List.mem_cons]
    split
    · next h_eq =>
      -- no keyframe behind the first one stands at the same frame
      have h_not : (frame, value) ∉ rest := by
        intro h_mem
        exact absurd (h_first _ h_mem) (by simp [h_eq])
      rw [Option.some.injEq, or_iff_left h_not, Prod.ext_iff, and_iff_right h_eq]
      exact eq_comm
    · next h_ne =>
      have h_not : (frame, value) ≠ first := by
        intro h_eq
        exact h_ne (congrArg Prod.fst h_eq)
      rw [or_iff_right h_not]
      exact ih h_rest

namespace Sound

/-- The user's keyframes are the values that frames between the ends have of their own. -/
theorem mem_inner_iff (h : t.Sound) {key : Frame × V} :
    key ∈ t.inner ↔ 0 < key.1 ∧ key.1 < t.endFrame ∧ t.own? key.1 = some key.2 := by
  constructor
  · intro h_mem
    obtain ⟨h_pos, h_lt⟩ := h.between key h_mem
    refine ⟨h_pos, h_lt, ?_⟩
    rw [own?_between h_pos h_lt]
    exact (lookup_eq_some_iff_mem h.ascending).mpr h_mem
  · rintro ⟨h_pos, h_lt, h_own⟩
    rw [own?_between h_pos h_lt] at h_own
    exact (lookup_eq_some_iff_mem h.ascending).mp h_own

/-- **A sound track is determined** by its last frame and the values that its frames have of their
own. -/
theorem ext (h : t.Sound) (h' : t'.Sound) (h_end : t.endFrame = t'.endFrame)
    (h_own : ∀ frame, t.own? frame = t'.own? frame) : t = t' := by
  have h_start : t.start = t'.start := by
    have h_zero := h_own 0
    rwa [own?_zero, own?_zero, Option.some.injEq] at h_zero
  -- two ascending lists with the same members are the same list
  have h_inner : t.inner = t'.inner := by
    have h_antisymm : Std.Antisymm fun a b : Frame × V => a.1 < b.1 :=
      ⟨fun _ _ hab hba => absurd hba hab.not_gt⟩
    have h_irrefl : Std.Irrefl fun a b : Frame × V => a.1 < b.1 := ⟨fun _ => lt_irrefl _⟩
    refine h.ascending.eq_of_mem_iff h'.ascending ?_
    intro key
    rw [h.mem_inner_iff, h'.mem_inner_iff, h_end, h_own]
  have h_stop := h_own t.endFrame
  rw [own?_endFrame h, h_end, own?_endFrame h'] at h_stop
  -- an end that follows the start has no value of its own
  have h_mode : t.endMode = t'.endMode := by
    cases h_one : t.endMode <;> cases h_two : t'.endMode <;> simp_all
  have h_stored : t.storedEnd = t'.storedEnd := by
    -- what an end that follows the start stores is known from the start
    cases h_one : t.endMode with
    | implicit => rw [h.mirrors h_one, h'.mirrors (h_mode ▸ h_one), h_start]
    | explicit =>
      rw [h_one, ← h_mode, h_one] at h_stop
      exact Option.some.inj h_stop
  cases t
  cases t'
  simp_all

/-! ### What a command does to them -/

/-- A write sets the value of its own frame, unless that lies past the end. -/
theorem own?_insert (h : t.Sound) (frame : Frame) (value : V) (other : Frame) :
    (t.insert frame value).state.own? other =
      if other = frame then if frame ≤ t.endFrame then some value else t.own? other
      else t.own? other := by
  have h_pos := h.zero_lt_endFrame
  rcases t.insert_cases frame value with ⟨h_at, h_eq⟩ | ⟨h_at, h_eq⟩ | ⟨h_at, -, h_eq⟩ |
    ⟨h_zero, h_lt, h_eq⟩
  · -- past the end nothing happens
    rw [h_eq, if_neg (not_le.mpr h_at), ite_self]
    rfl
  · -- the end has a value of its own from now on
    rw [h_eq, Outcome.state_accept, if_pos h_at.le, h_at]
    simp only [own?]
    by_cases h_other : other = t.endFrame
    · rw [if_pos h_other, if_pos h_other, if_neg (h_other.trans_ne h_pos.ne')]
    · rw [if_neg h_other, if_neg h_other, if_neg h_other]
  · -- the start; what an end that follows it stores is no value of its own
    rw [h_eq, Outcome.state_accept, h_at, if_pos (Nat.zero_le _)]
    simp only [own?]
    by_cases h_other : other = 0
    · rw [if_pos h_other, if_pos h_other]
    · rw [if_neg h_other, if_neg h_other, if_neg h_other]
      cases t.endMode <;> rfl
  · -- a frame between the two
    rw [h_eq, Outcome.state_accept, if_pos h_lt.le]
    simp only [own?, lookup_insertKey]
    by_cases h_other : other = frame
    · rw [if_pos h_other, if_pos h_other, if_neg (h_other.trans_ne h_zero.ne'),
        if_neg (h_other.trans_ne h_lt.ne)]
    · rw [if_neg h_other, if_neg h_other]

/-- A frame has a keyframe of the user exactly if it lies between the ends and has a value. -/
theorem isSome_lookup_iff (h : t.Sound) : (t.inner.lookup frame).isSome = true ↔
    0 < frame ∧ frame < t.endFrame ∧ (t.own? frame).isSome = true := by
  constructor
  · intro h_some
    obtain ⟨value, h_value⟩ := Option.isSome_iff_exists.mp h_some
    have h_mem := (lookup_eq_some_iff_mem h.ascending).mp h_value
    obtain ⟨h_pos, h_lt⟩ := h.between _ h_mem
    refine ⟨h_pos, h_lt, ?_⟩
    rwa [own?_between h_pos h_lt]
  · rintro ⟨h_pos, h_lt, h_some⟩
    rwa [own?_between h_pos h_lt] at h_some

/-- A deletion takes the value of its own frame away, if that is one of the user's. -/
theorem own?_erase (h : t.Sound) (frame other : Frame) :
    (t.erase frame).state.own? other =
      if other = frame then if (t.inner.lookup frame).isSome = true then none else t.own? other
      else t.own? other := by
  rw [erase]
  split
  · next h_some =>
    obtain ⟨h_pos, h_lt, -⟩ := h.isSome_lookup_iff.mp h_some
    rw [Outcome.state_accept]
    simp only [own?, lookup_filter_ne]
    -- the frame that is erased is strictly between the two ends
    by_cases h_other : other = frame
    · rw [if_pos h_other, if_pos h_other, if_neg (h_other.trans_ne h_pos.ne'),
        if_neg (h_other.trans_ne h_lt.ne)]
    · rw [if_neg h_other, if_neg h_other]
  · next h_none => rw [ite_self, Outcome.state_refuse]

/-- **A command is answered** by the value of its own frame alone. -/
theorem accepted_perform (h : t.Sound) (c : Command V) :
    (t.perform c).accepted = (c.onOwn t.endFrame (t.own? c.frame)).accepted := by
  -- adding and pasting are insertions, and refused behind the end only
  have h_write (frame : Frame) (value : V) : (t.insert frame value).accepted =
      (if frame ≤ t.endFrame then .accept (some value) else .refuse (t.own? frame) :
        Outcome (Option V)).accepted := by
    split
    · next h_le =>
      obtain ⟨t', h_eq, -⟩ := insert_eq_accept h_le value
      rw [h_eq, Outcome.accepted_accept, Outcome.accepted_accept]
    · next h_not => rw [insert, if_pos (not_le.mp h_not), Outcome.accepted_refuse,
        Outcome.accepted_refuse]
  cases c with
  | add frame value => exact h_write frame value
  | paste frame value => exact h_write frame value
  | delete frame =>
    change (t.erase frame).accepted = _
    rw [erase, Command.onOwn, apply_ite Outcome.accepted, apply_ite Outcome.accepted]
    exact if_congr h.isSome_lookup_iff rfl rfl

/-- **A command changes the value of its own frame**, and no other one. -/
theorem own?_perform (h : t.Sound) (c : Command V) (other : Frame) :
    (t.perform c).state.own? other =
      if other = c.frame then (c.onOwn t.endFrame (t.own? other)).state else t.own? other := by
  -- an insertion is seen at its own frame, where the command sees it as well
  have h_write (frame : Frame) (value : V) : (t.insert frame value).state.own? other =
      if other = frame then
        (if frame ≤ t.endFrame then .accept (some value) else .refuse (t.own? other) :
          Outcome (Option V)).state
      else t.own? other := by
    rw [h.own?_insert, apply_ite Outcome.state]
    rfl
  cases c with
  | add frame value => exact h_write frame value
  | paste frame value => exact h_write frame value
  | delete frame =>
    change (t.erase frame).state.own? other = if other = frame then _ else _
    rw [h.own?_erase]
    refine if_ctx_congr Iff.rfl (fun h_other => ?_) fun _ => rfl
    rw [h_other, Command.onOwn, apply_ite Outcome.state]
    exact if_congr h.isSome_lookup_iff rfl rfl

/-! ### Two commands -/

/-- A command leaves the value of another command's frame alone. -/
theorem own?_perform_of_ne (h : t.Sound) {c d : Command V} (h_ne : c.frame ≠ d.frame) :
    (t.perform c).state.own? d.frame = t.own? d.frame := by
  rw [h.own?_perform, if_neg h_ne.symm]

/-- **A command is answered as if another one had not been given.** -/
theorem accepted_perform_perform (h : t.Sound) {c d : Command V} (h_ne : c.frame ≠ d.frame) :
    ((t.perform c).state.perform d).accepted = (t.perform d).accepted := by
  rw [(h.perform c).accepted_perform, h.accepted_perform, h.own?_perform_of_ne h_ne,
    endFrame_perform]

/-- **Two commands at different frames commute.** -/
theorem perform_comm (h : t.Sound) {c d : Command V} (h_ne : c.frame ≠ d.frame) :
    ((t.perform c).state.perform d).state = ((t.perform d).state.perform c).state := by
  refine ext ((h.perform c).perform d) ((h.perform d).perform c) (by simp) ?_
  intro other
  rw [(h.perform c).own?_perform, (h.perform d).own?_perform, h.own?_perform, h.own?_perform,
    endFrame_perform, endFrame_perform]
  by_cases h_c : other = c.frame
  · have h_d : other ≠ d.frame := h_c.trans_ne h_ne
    rw [if_pos h_c, if_neg h_d, if_pos h_c, if_neg h_d]
  · rw [if_neg h_c, if_neg h_c]

/-! ### Lists of commands -/

/-- Commands at different frames are answered as if each had been the only one. -/
theorem runAll_answers (h : t.Sound) {commands : List (Command V)}
    (h_frames : commands.Pairwise fun c d => c.frame ≠ d.frame) :
    (Outcome.runAll Track.perform t commands).1 =
      commands.map fun c => (t.perform c).accepted := by
  induction commands generalizing t with
  | nil => rfl
  | cons c rest ih =>
    obtain ⟨h_first, h_rest⟩ := List.pairwise_cons.mp h_frames
    rw [List.map_cons]
    refine congrArg (List.cons _) ?_
    rw [ih (h.perform c) h_rest]
    exact List.map_congr_left fun d h_d => h.accepted_perform_perform (h_first d h_d)

/-- **Commands at different frames may be given in any order.** -/
theorem runAll_perm (h : t.Sound) {commands others : List (Command V)}
    (h_perm : commands.Perm others)
    (h_frames : commands.Pairwise fun c d => c.frame ≠ d.frame) :
    (Outcome.runAll Track.perform t commands).2 = (Outcome.runAll Track.perform t others).2 := by
  induction h_perm generalizing t with
  | nil => rfl
  | cons c _ ih => exact ih (h.perform c) h_frames.of_cons
  | swap c d rest =>
    -- the two that change places are the first to be carried out
    have h_ne : d.frame ≠ c.frame := (List.pairwise_cons.mp h_frames).1 c List.mem_cons_self
    change (Outcome.runAll Track.perform ((t.perform d).state.perform c).state rest).2 = _
    rw [h.perform_comm h_ne]
    rfl
  | trans h_one _ ih_one ih_two =>
    exact (ih_one h h_frames).trans (ih_two h (h_one.pairwise h_frames Ne.symm))

end Sound

end Own

/-- **The order of commands at different frames does not matter.** Whatever has been done to a track,
two such commands lead to the same track in either order and are answered alike, and so do and are
all lists of them that differ in their order only. -/
theorem commands_commute (initial : V) (lastFrame : Frame) (past : List (Command V)) :
    let t := (Outcome.runAll perform (create initial lastFrame) past).2
    (∀ c d : Command V, c.frame ≠ d.frame →
      ((t.perform c).state.perform d).state = ((t.perform d).state.perform c).state ∧
        ((t.perform c).state.perform d).accepted = (t.perform d).accepted ∧
        ((t.perform d).state.perform c).accepted = (t.perform c).accepted) ∧
      ∀ commands others : List (Command V), commands.Perm others →
        commands.Pairwise (fun c d => c.frame ≠ d.frame) →
        (Outcome.runAll perform t commands).2 = (Outcome.runAll perform t others).2 ∧
          (Outcome.runAll perform t commands).1 = commands.map (fun c => (t.perform c).accepted) ∧
          (Outcome.runAll perform t others).1 = others.map (fun c => (t.perform c).accepted) := by
  intro t
  -- all that is needed of the past is that the track is sound
  have h : t.Sound := ((Refines.create initial lastFrame).runAll past).2.sound
  refine ⟨?_, ?_⟩
  · intro c d h_ne
    exact ⟨h.perform_comm h_ne, h.accepted_perform_perform h_ne,
      h.accepted_perform_perform h_ne.symm⟩
  · intro commands others h_perm h_frames
    exact ⟨h.runAll_perm h_perm h_frames, h.runAll_answers h_frames,
      h.runAll_answers (h_perm.pairwise h_frames Ne.symm)⟩

/-- The start moves an end that follows it, and writing the end stops that; still the two may be
given in either order, and with them a deletion, a write between and one past the end. -/
theorem commands_commute_of_both_ends :
    let t : Track Nat := (Outcome.runAll perform (create 7 10) [.add 4 9]).2
    let commands : List (Command Nat) :=
      [.add 0 1, .add 10 2, .delete 4, .paste 6 3, .paste 12 5]
    let others : List (Command Nat) :=
      [.paste 12 5, .add 10 2, .paste 6 3, .add 0 1, .delete 4]
    (commands.Perm others ∧ commands.Pairwise fun c d => c.frame ≠ d.frame) ∧
      ((t.perform (.add 0 1)).state.perform (.add 10 2)).state =
        ((t.perform (.add 10 2)).state.perform (.add 0 1)).state ∧
      (Outcome.runAll perform t commands).2 = (Outcome.runAll perform t others).2 ∧
      (Outcome.runAll perform t others).1 = [false, true, true, true, true] ∧
      (Outcome.runAll perform t others).2 = ⟨1, [(6, 3)], 10, 2, .explicit⟩ := by
  intro t commands others
  obtain ⟨h_two, h_lists⟩ := commands_commute 7 10 [.add 4 9]
  -- five commands with five different frames, one of them behind the end
  have h_perm : commands.Perm others := by decide
  have h_frames : commands.Pairwise fun c d => c.frame ≠ d.frame := by decide
  have h_commute := h_two (.add 0 1) (.add 10 2) (by decide)
  obtain ⟨h_same, -, -⟩ := h_lists commands others h_perm h_frames
  exact ⟨⟨h_perm, h_frames⟩, h_commute.1, h_same, by decide, by decide⟩

end Track

end ClipEdit
