import ClipEdit.Proofs.Clip.Refusal

/-!
# Copying from track to track

The two tracks of a clip share one clipboard. What it holds has no type of its own, so every paste
has to find out whether it fits, and in between the keyframe that was copied may have been written
over, moved along with the start of its track or deleted.

`Overlays` is the two tracks with their clipboard, and `run` a history of commands on them. What a
paste writes can be read off the history without following the clipboard: `LastCopied` names the
last command that changed the clipboard, and the value that its source showed at that moment.

* `held?_run_iff` — the clipboard holds a value for a kind of overlay exactly if that value was the
  last one copied, and was copied from a track of that kind;
* `accepted_paste_iff`, `get?_paste` — a paste is carried out exactly if something of its kind is
  held and the frame is not past the end, and then it is what the keyframe shows;
* `pastes_last_copy` — both together, for every history.
-/

namespace ClipEdit

variable {α : Type}

/-! ### Two tracks and a clipboard -/

/-- The kinds of overlays. -/
inductive OverlayKind where
  | crop
  | highlight
deriving Repr, DecidableEq

/-- The overlays of a kind. -/
def OverlayKind.Value (α : Type) : OverlayKind → Type
  | .crop => Crop α
  | .highlight => Highlight α

instance OverlayKind.clippable : (kind : OverlayKind) → Clippable α (kind.Value α)
  | .crop => inferInstanceAs (Clippable α (Crop α))
  | .highlight => inferInstanceAs (Clippable α (Highlight α))

/-- A crop track, a highlight track, and the clipboard that they share. -/
structure Overlays (α : Type) where
  crop : Track (Crop α)
  highlight : Track (Highlight α)
  clipboard : Clipboard α

namespace Overlays

/-- The track of a kind. -/
def track (o : Overlays α) : (kind : OverlayKind) → Track (kind.Value α)
  | .crop => o.crop
  | .highlight => o.highlight

/-- The overlays with another track of a kind. -/
def withTrack (o : Overlays α) : (kind : OverlayKind) → Track (kind.Value α) → Overlays α
  | .crop, crop => { o with crop }
  | .highlight, highlight => { o with highlight }

/-- What the clipboard holds for the tracks of a kind. -/
def held? (o : Overlays α) (kind : OverlayKind) : Option (kind.Value α) := o.clipboard.held?

/-- What can be asked of two tracks and their clipboard. -/
inductive Command (α : Type) where
  | copy (kind : OverlayKind) (frame : Frame)
  | clear
  | add (kind : OverlayKind) (frame : Frame) (value : kind.Value α)
  | delete (kind : OverlayKind) (frame : Frame)
  | paste (kind : OverlayKind) (frame : Frame)

/-- The outcome of a command. -/
def perform (o : Overlays α) : Command α → Outcome (Overlays α)
  | .copy kind frame =>
      (o.clipboard.copyFrom (o.track kind) frame).map fun clipboard => { o with clipboard }
  | .clear => .accept { o with clipboard := .empty }
  | .add kind frame value => ((o.track kind).insert frame value).map (o.withTrack kind)
  | .delete kind frame => ((o.track kind).erase frame).map (o.withTrack kind)
  | .paste kind frame => (o.clipboard.pasteInto (o.track kind) frame).map (o.withTrack kind)

/-- The tracks and the clipboard after a history of commands. -/
def run (o : Overlays α) (commands : List (Command α)) : Overlays α :=
  commands.foldl (fun o c => (o.perform c).state) o

/-- Does the command change what is on the clipboard? Clearing always does, and copying does if
there is a keyframe to copy. -/
def Replaces (o : Overlays α) : Command α → Prop
  | .clear => True
  | .copy kind frame => (o.track kind).contains frame = true
  | _ => False

/-- **The last change of the clipboard was a copy** from a track of a kind, and `value` is what that
track showed at the frame it was copied from, at the moment of the copy. None of the commands behind
it changed the clipboard, each in the state that it was given in. -/
def LastCopied (o : Overlays α) (commands : List (Command α)) (kind : OverlayKind)
    (value : kind.Value α) : Prop :=
  ∃ before frame after, commands = before ++ .copy kind frame :: after ∧
    ((o.run before).track kind).get? frame = some value ∧
    ∀ done c rest, after = done ++ c :: rest →
      ¬ (o.run (before ++ .copy kind frame :: done)).Replaces c

variable {o : Overlays α} {kind other : OverlayKind} {frame : Frame} {c : Command α}
  {commands : List (Command α)}

@[simp] theorem track_withTrack (o : Overlays α) (kind : OverlayKind) (t : Track (kind.Value α)) :
    (o.withTrack kind t).track kind = t := by
  cases kind <;> rfl

@[simp] theorem withTrack_track (o : Overlays α) (kind : OverlayKind) :
    o.withTrack kind (o.track kind) = o := by
  cases kind <;> rfl

@[simp] theorem clipboard_withTrack (o : Overlays α) (kind : OverlayKind)
    (t : Track (kind.Value α)) : (o.withTrack kind t).clipboard = o.clipboard := by
  cases kind <;> rfl

theorem run_concat (o : Overlays α) (commands : List (Command α)) (c : Command α) :
    o.run (commands ++ [c]) = ((o.run commands).perform c).state := by
  rw [run, List.foldl_append]
  rfl

/-! ### Kinds do not cross -/

/-- What was put on the clipboard comes back from it. -/
theorem ofClipping?_toClipping (value : kind.Value α) :
    (Clippable.ofClipping? (Clippable.toClipping value) : Option (kind.Value α)) = some value := by
  cases kind <;> rfl

/-- But not as an overlay of the other kind. -/
theorem ofClipping?_of_ne (h : other ≠ kind) (value : kind.Value α) :
    (Clippable.ofClipping? (Clippable.toClipping value) : Option (other.Value α)) = none := by
  cases kind with
  | crop =>
    cases other with
    | crop => exact absurd rfl h
    | highlight => rfl
  | highlight =>
    cases other with
    | crop => rfl
    | highlight => exact absurd rfl h

/-! ### What one command does to the clipboard -/

/-- There is something to copy where there is a keyframe. -/
theorem contains_eq_isSome_get? {V : Type} (t : Track V) (frame : Frame) :
    t.contains frame = (t.get? frame).isSome := by
  rw [Track.contains, Track.get?]
  by_cases h_end : frame = t.endFrame
  · rw [if_pos h_end]
    simp [h_end]
  · rw [if_neg h_end]
    by_cases h_zero : frame = 0 <;> simp [h_end, h_zero]

/-- A copy is carried out exactly if there is a keyframe. -/
theorem accepted_copy (o : Overlays α) (kind : OverlayKind) (frame : Frame) :
    (o.perform (.copy kind frame)).accepted = (o.track kind).contains frame := by
  rw [contains_eq_isSome_get?, perform, Outcome.accepted_map, Clipboard.copyFrom, Track.copy?]
  cases (o.track kind).get? frame <;> rfl

/-- A command that does not replace what is held leaves the clipboard alone. -/
theorem clipboard_perform (h : ¬ o.Replaces c) : (o.perform c).state.clipboard = o.clipboard := by
  cases c with
  | copy kind frame =>
    -- nothing is there to be copied
    have h_none : (o.track kind).get? frame = none := by
      rw [Replaces, contains_eq_isSome_get?] at h
      simpa using h
    rw [perform, Outcome.state_map, Clipboard.copyFrom, Track.copy?, h_none]
    rfl
  | clear => exact absurd trivial h
  | add kind frame value => exact clipboard_withTrack _ _ _
  | delete kind frame => exact clipboard_withTrack _ _ _
  | paste kind frame => exact clipboard_withTrack _ _ _

/-- One that does replace it leaves the copied value for the tracks of the kind it was copied from,
and nothing for the others. -/
theorem held?_perform (h : o.Replaces c) (value : kind.Value α) :
    (o.perform c).state.held? kind = some value ↔
      ∃ frame, c = .copy kind frame ∧ (o.track kind).get? frame = some value := by
  cases c with
  | clear => simp [perform, held?, Clipboard.held?, Clipboard.empty]
  | copy source frame =>
    -- the frame has a value, since the copy replaces what is held
    obtain ⟨copied, h_get⟩ : ∃ copied, (o.track source).get? frame = some copied := by
      rw [Replaces, contains_eq_isSome_get?] at h
      exact Option.isSome_iff_exists.mp h
    have h_held : (o.perform (.copy source frame)).state.held? kind =
        Clippable.ofClipping? (Clippable.toClipping copied) := by
      rw [perform, Outcome.state_map, Clipboard.copyFrom, Track.copy?, h_get]
      rfl
    rw [h_held]
    -- a copy of the other kind leaves nothing of this one behind
    by_cases h_kind : kind = source
    · subst h_kind
      rw [ofClipping?_toClipping, ← h_get]
      constructor
      · exact fun h_eq => ⟨frame, rfl, h_eq⟩
      · rintro ⟨_, ⟨⟩, h_eq⟩
        exact h_eq
    · rw [ofClipping?_of_ne h_kind]
      constructor
      · exact fun h_none => absurd h_none (by simp)
      · rintro ⟨_, ⟨⟩, -⟩
        exact absurd rfl h_kind
  | add kind frame value => exact absurd h id
  | delete kind frame => exact absurd h id
  | paste kind frame => exact absurd h id

/-! ### What a history leaves on the clipboard -/

/-- The last copy after one more command: it is that command, or the one before it if the clipboard
was left alone. -/
theorem lastCopied_concat {value : kind.Value α} :
    o.LastCopied (commands ++ [c]) kind value ↔
      (∃ frame, c = .copy kind frame ∧ ((o.run commands).track kind).get? frame = some value) ∨
        (¬ (o.run commands).Replaces c ∧ o.LastCopied commands kind value) := by
  constructor
  · rintro ⟨before, frame, after, h_eq, h_get, h_after⟩
    -- the copy is the command that was added, or stands in the history before it
    rcases List.eq_nil_or_concat' after with rfl | ⟨after, last, rfl⟩
    · obtain ⟨rfl, h_last⟩ := List.append_inj' h_eq rfl
      exact .inl ⟨frame, List.singleton_inj.mp h_last, h_get⟩
    · rw [← List.cons_append, ← List.append_assoc] at h_eq
      obtain ⟨rfl, h_last⟩ := List.append_inj' h_eq rfl
      obtain rfl := List.singleton_inj.mp h_last
      refine .inr ⟨h_after after c [] rfl, before, frame, after, rfl, h_get, ?_⟩
      rintro done c' rest rfl
      exact h_after done c' (rest ++ [c]) (by simp)
  · rintro (⟨frame, rfl, h_get⟩ | ⟨h_kept, before, frame, after, rfl, h_get, h_after⟩)
    · exact ⟨commands, frame, [], rfl, h_get, fun done c' rest h_eq => by simp at h_eq⟩
    · refine ⟨before, frame, after ++ [c], by simp, h_get, ?_⟩
      intro done c' rest h_eq
      rcases List.eq_nil_or_concat' rest with rfl | ⟨rest, last, rfl⟩
      · -- nothing is behind `c'`, so it is the command that was added
        obtain ⟨rfl, h_last⟩ := List.append_inj' h_eq rfl
        obtain rfl := List.singleton_inj.mp h_last
        exact h_kept
      · rw [← List.cons_append, ← List.append_assoc] at h_eq
        exact h_after done c' rest (List.append_inj' h_eq rfl).1

/-- **What is on the clipboard is what was copied last.** -/
theorem held?_run_iff (h_empty : o.clipboard = .empty) {value : kind.Value α} :
    (o.run commands).held? kind = some value ↔ o.LastCopied commands kind value := by
  induction commands using List.reverseRecOn with
  | nil =>
    constructor
    · intro h_held
      rw [held?, run, List.foldl_nil, h_empty] at h_held
      simp [Clipboard.held?, Clipboard.empty] at h_held
    · rintro ⟨before, frame, after, h_eq, -⟩
      simp at h_eq
  | append_singleton commands c ih =>
    rw [run_concat, lastCopied_concat]
    by_cases h : (o.run commands).Replaces c
    · rw [held?_perform h]
      simp [h]
    · -- a command that leaves the clipboard alone has copied nothing
      have h_not : ¬ ∃ frame, c = .copy kind frame ∧
          ((o.run commands).track kind).get? frame = some value := by
        rintro ⟨frame, rfl, h_get⟩
        refine h ?_
        rw [Replaces, contains_eq_isSome_get?, h_get]
        rfl
      rw [held?, clipboard_perform h, ← held?, ih]
      simp [h, h_not]

/-! ### Pasting -/

/-- **When a paste is carried out**: something of its kind is held, and the frame is not past the
end. -/
theorem accepted_paste_iff (o : Overlays α) (kind : OverlayKind) (frame : Frame) :
    (o.perform (.paste kind frame)).accepted = true ↔
      (∃ value, o.held? kind = some value) ∧ frame ≤ (o.track kind).endFrame := by
  rw [perform, Outcome.accepted_map, Clipboard.pasteInto, ← Clipboard.held?, ← held?]
  cases h_held : o.held? kind with
  | none => simp
  | some value =>
    change ((o.track kind).insert frame value).accepted = true ↔ _
    -- a paste is an insertion, and an insertion is refused behind the end only
    by_cases h_le : frame ≤ (o.track kind).endFrame
    · obtain ⟨t, h_eq, -⟩ := (o.track kind).insert_eq_accept h_le value
      simp [h_eq, h_le]
    · have h_eq : (o.track kind).insert frame value = .refuse (o.track kind) :=
        if_pos (not_le.mp h_le)
      simp [h_eq, h_le]

/-- **What a paste writes**: the value that is held is the one that the keyframe shows. -/
theorem get?_paste {value : kind.Value α} (h_held : o.held? kind = some value)
    (h_le : frame ≤ (o.track kind).endFrame) :
    ((o.perform (.paste kind frame)).state.track kind).get? frame = some value := by
  obtain ⟨t, h_eq, h_get⟩ := (o.track kind).insert_eq_accept h_le value
  have h_paste : o.clipboard.pasteInto (o.track kind) frame = .accept t := by
    rw [held?, Clipboard.held?] at h_held
    rw [Clipboard.pasteInto, h_held]
    exact h_eq
  rw [perform, Outcome.state_map, track_withTrack, h_paste]
  exact h_get

/-- A command that is refused changes neither a track nor the clipboard. -/
theorem atomic_perform (o : Overlays α) (c : Command α) : (o.perform c).Atomic o := by
  -- the track of the command is unchanged, and the other one was not touched
  have h_track : ∀ (kind : OverlayKind) (r : Outcome (Track (kind.Value α))),
      r.Atomic (o.track kind) → (r.map (o.withTrack kind)).Atomic o := by
    intro kind r h_atomic
    have h_map := h_atomic.map (o.withTrack kind)
    rwa [withTrack_track] at h_map
  cases c with
  | copy kind frame =>
    exact (o.clipboard.atomic_copyFrom (o.track kind) frame).map
      (fun clipboard => ({ o with clipboard } : Overlays α))
  | clear => exact .of_accept rfl
  | add kind frame value => exact h_track kind _ ((o.track kind).atomic_insert frame value)
  | delete kind frame => exact h_track kind _ ((o.track kind).atomic_erase frame)
  | paste kind frame => exact h_track kind _ (o.clipboard.atomic_pasteInto (o.track kind) frame)

/-- **A paste writes what was copied last.** Two tracks and an empty clipboard are given, and any
history of commands on them. A paste is carried out exactly if the last change of the clipboard was
a copy from a track of the same kind and the frame is not past the end; the keyframe then shows what
its source showed at the moment of the copy. A copy is carried out exactly if there is a keyframe,
and copies and pastes that are refused change nothing. -/
theorem pastes_last_copy (crop : Track (Crop α)) (highlight : Track (Highlight α))
    (commands : List (Command α)) (kind : OverlayKind) (frame : Frame) :
    let start : Overlays α := ⟨crop, highlight, .empty⟩
    let now := start.run commands
    let pasted := now.perform (.paste kind frame)
    let copied := now.perform (.copy kind frame)
    (pasted.accepted = true ↔
        (∃ value, start.LastCopied commands kind value) ∧ frame ≤ (now.track kind).endFrame) ∧
      (∀ value, start.LastCopied commands kind value → frame ≤ (now.track kind).endFrame →
        (pasted.state.track kind).get? frame = some value) ∧
      (pasted.accepted = false → pasted.state = now) ∧
      (copied.accepted = (now.track kind).contains frame) ∧
      (copied.accepted = false → copied.state = now) := by
  intro start now pasted copied
  have h_held : ∀ value, now.held? kind = some value ↔ start.LastCopied commands kind value :=
    fun value => held?_run_iff rfl
  -- a refused command changes nothing because no command of the overlays does
  refine ⟨?_, ?_, now.atomic_perform _, now.accepted_copy kind frame, now.atomic_perform _⟩
  · rw [now.accepted_paste_iff kind frame]
    simp only [h_held]
  · exact fun value h_last h_le => get?_paste ((h_held value).mpr h_last) h_le

/-- The end of a new track shows the start. It was copied as such, and is pasted as such after the
start has moved on, a copy has found no keyframe and a paste did not fit. -/
example :
    let value (n : Rat) : Crop Rat := ⟨n, 0, 10, 10⟩
    let ellipse : Highlight Rat := .ofShape 50 50 20 20
    let o : Overlays Rat := ⟨.create (value 0) 9, .create ellipse 9, .empty⟩
    let now := o.run [.copy .crop 9, .add .crop 0 (value 7), .copy .crop 3, .paste .highlight 2]
    now.crop.get? 9 = some (value 7) ∧
      (now.perform (.paste .crop 4)).state.crop.get? 4 = some (value 0) := by
  decide

end Overlays

end ClipEdit
