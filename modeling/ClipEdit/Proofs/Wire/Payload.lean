import ClipEdit.Proofs.Json.Wire
import ClipEdit.Wire.Clip

/-!
# Payloads as texts

Every part of a payload is a record, so it is read back exactly if its fields are. There is one lemma
of that kind for each of them (`reads_span`, …, `reads_export`), and with the numbers of a part named
(`Export.numbers`), one that says what its numbers decide: whether a null is written, and whether all
of it can be read back (`coded_export`). Beside the numbers, only frames could be too large to be
read.
-/

namespace ClipEdit

open Json

/-! ### The numbers of a payload -/

section Numbers

variable {α : Type} {P : α → Prop}

/-- The numbers of a crop. -/
def Crop.numbers (c : Crop α) : List α := [c.x, c.y, c.width, c.height]

theorem Crop.forall_numbers {c : Crop α} :
    (∀ x ∈ c.numbers, P x) ↔ P c.x ∧ P c.y ∧ P c.width ∧ P c.height := by simp [Crop.numbers]

/-- The numbers of a highlight. -/
def Highlight.numbers (h : Highlight α) : List α := [h.x, h.y, h.radiusX, h.radiusY, h.opacity]

theorem Highlight.forall_numbers {h : Highlight α} :
    (∀ x ∈ h.numbers, P x) ↔ P h.x ∧ P h.y ∧ P h.radiusX ∧ P h.radiusY ∧ P h.opacity := by
  simp [Highlight.numbers]

/-- The numbers of a span. -/
def SpanExport.numbers (s : SpanExport α) : List α := [s.start, s.stop, s.speed]

theorem SpanExport.forall_numbers {s : SpanExport α} :
    (∀ x ∈ s.numbers, P x) ↔ P s.start ∧ P s.stop ∧ P s.speed := by simp [SpanExport.numbers]

/-- The numbers of a range. -/
def TimeRange.numbers (r : TimeRange α) : List α := [r.start, r.stop]

theorem TimeRange.forall_numbers {r : TimeRange α} :
    (∀ x ∈ r.numbers, P x) ↔ P r.start ∧ P r.stop := by simp [TimeRange.numbers]

/-- The numbers of a timeline. -/
def TimelineExport.numbers (t : TimelineExport α) : List α :=
  t.spans.flatMap SpanExport.numbers ++ t.trimRange.numbers

/-- The numbers of the highlight of a payload. -/
def HighlightExport.numbers (h : HighlightExport α) : List α :=
  h.duration :: h.keyframes.flatMap fun k => k.value.numbers

/-- **The numbers of a payload.** -/
def Export.numbers (e : Export α) : List α :=
  (e.crop.flatMap fun k => k.value.numbers) ++ (e.highlight.numbers ++ e.timeline.numbers)

end Numbers

/-! ### Part by part -/

theorem reads_cropKey {k k' : FrameValue (Crop Float)} :
    Reads k k' ↔ (k.frame ≤ Frame.limit ∧ k.frame = k'.frame) ∧ Reads k.value.x k'.value.x ∧
      Reads k.value.y k'.value.y ∧ Reads k.value.width k'.value.width ∧
      Reads k.value.height k'.value.height := by
  -- the fields as they are written, none of them twice
  refine (record_bind_eq_ok [("frame", count k.frame), ("x", encode k.value.x),
    ("y", encode k.value.y), ("width", encode k.value.width), ("height", encode k.value.height)]
    (by simp)).trans ?_
  simp only [bind_eq_ok, pure_eq_ok, Record.get, Record.getWith, List.lookup, beq_self_eq_true,
    String.reduceBEq, countUpTo_count (show Frame.limit ≤ _ by decide)]
  -- each field is read on its own, and the record is what was read
  constructor
  · rintro ⟨frame, h_frame, x, hx, y, hy, width, h_width, height, h_height, rfl⟩
    exact ⟨h_frame, hx, hy, h_width, h_height⟩
  · rintro ⟨h_frame, hx, hy, h_width, h_height⟩
    exact ⟨_, h_frame, _, hx, _, hy, _, h_width, _, h_height, rfl⟩

theorem reads_highlightKey {k k' : FrameValue (Highlight Float)} :
    Reads k k' ↔ (k.frame ≤ Frame.limit ∧ k.frame = k'.frame) ∧ Reads k.value.x k'.value.x ∧
      Reads k.value.y k'.value.y ∧ Reads k.value.radiusX k'.value.radiusX ∧
      Reads k.value.radiusY k'.value.radiusY ∧ Reads k.value.opacity k'.value.opacity ∧
      Reads k.value.color k'.value.color := by
  refine (record_bind_eq_ok [("frame", count k.frame), ("x", encode k.value.x),
    ("y", encode k.value.y), ("radiusX", encode k.value.radiusX),
    ("radiusY", encode k.value.radiusY), ("opacity", encode k.value.opacity),
    ("color", encode k.value.color)] (by simp)).trans ?_
  simp only [bind_eq_ok, pure_eq_ok, Record.get, Record.getWith, List.lookup, beq_self_eq_true,
    String.reduceBEq, countUpTo_count (show Frame.limit ≤ _ by decide)]
  constructor
  · rintro ⟨frame, h_frame, x, hx, y, hy, radiusX, h_wide, radiusY, h_high, opacity, h_opacity,
      color, h_color, rfl⟩
    exact ⟨h_frame, hx, hy, h_wide, h_high, h_opacity, h_color⟩
  · rintro ⟨h_frame, hx, hy, h_wide, h_high, h_opacity, h_color⟩
    exact ⟨_, h_frame, _, hx, _, hy, _, h_wide, _, h_high, _, h_opacity, _, h_color, rfl⟩

theorem reads_span {s s' : SpanExport Float} :
    Reads s s' ↔ Reads s.start s'.start ∧ Reads s.stop s'.stop ∧ Reads s.speed s'.speed := by
  refine (record_bind_eq_ok [("start", encode s.start), ("end", encode s.stop),
    ("speed", encode s.speed)] (by simp)).trans ?_
  simp only [bind_eq_ok, pure_eq_ok, Record.get, Record.getWith, List.lookup, beq_self_eq_true,
    String.reduceBEq]
  constructor
  · rintro ⟨start, h_start, stop, h_stop, speed, h_speed, rfl⟩
    exact ⟨h_start, h_stop, h_speed⟩
  · rintro ⟨h_start, h_stop, h_speed⟩
    exact ⟨_, h_start, _, h_stop, _, h_speed, rfl⟩

theorem reads_range {r r' : TimeRange Float} :
    Reads r r' ↔ Reads r.start r'.start ∧ Reads r.stop r'.stop := by
  refine (record_bind_eq_ok [("start", encode r.start), ("end", encode r.stop)]
    (by simp)).trans ?_
  simp only [bind_eq_ok, pure_eq_ok, Record.get, Record.getWith, List.lookup, beq_self_eq_true,
    String.reduceBEq]
  constructor
  · rintro ⟨start, h_start, stop, h_stop, rfl⟩
    exact ⟨h_start, h_stop⟩
  · rintro ⟨h_start, h_stop⟩
    exact ⟨_, h_start, _, h_stop, rfl⟩

theorem reads_timeline {t t' : TimelineExport Float} :
    Reads t t' ↔ Reads t.spans t'.spans ∧ Reads t.trimRange t'.trimRange := by
  refine (record_bind_eq_ok [("segments", encode t.spans),
    ("trimRange", encode t.trimRange)] (by simp)).trans ?_
  simp only [bind_eq_ok, pure_eq_ok, Record.get, Record.getWith, List.lookup, beq_self_eq_true,
    String.reduceBEq]
  constructor
  · rintro ⟨spans, h_spans, range, h_range, rfl⟩
    exact ⟨h_spans, h_range⟩
  · rintro ⟨h_spans, h_range⟩
    exact ⟨_, h_spans, _, h_range, rfl⟩

theorem reads_highlight {h h' : HighlightExport Float} :
    Reads h h' ↔ Reads h.isEnabled h'.isEnabled ∧ Reads h.duration h'.duration ∧
      Reads h.keyframes h'.keyframes := by
  refine (record_bind_eq_ok [("enabled", encode h.isEnabled),
    ("duration", encode h.duration), ("keyframes", encode h.keyframes)] (by simp)).trans ?_
  simp only [bind_eq_ok, pure_eq_ok, Record.get, Record.getWith, List.lookup, beq_self_eq_true,
    String.reduceBEq]
  constructor
  · rintro ⟨enabled, h_enabled, duration, h_duration, keyframes, h_keyframes, rfl⟩
    exact ⟨h_enabled, h_duration, h_keyframes⟩
  · rintro ⟨h_enabled, h_duration, h_keyframes⟩
    exact ⟨_, h_enabled, _, h_duration, _, h_keyframes, rfl⟩

theorem reads_export {e e' : Export Float} :
    Reads e e' ↔ Reads e.crop e'.crop ∧ Reads e.highlight e'.highlight ∧
      Reads e.timeline e'.timeline := by
  refine (record_bind_eq_ok [("cropKeyframes", encode e.crop),
    ("highlight", encode e.highlight), ("segmentData", encode e.timeline)] (by simp)).trans ?_
  simp only [bind_eq_ok, pure_eq_ok, Record.get, Record.getWith, List.lookup, beq_self_eq_true,
    String.reduceBEq]
  constructor
  · rintro ⟨crop, h_crop, highlight, h_highlight, timeline, h_timeline, rfl⟩
    exact ⟨h_crop, h_highlight, h_timeline⟩
  · rintro ⟨h_crop, h_highlight, h_timeline⟩
    exact ⟨_, h_crop, _, h_highlight, _, h_timeline, rfl⟩

/-! ### What the numbers decide -/

theorem coded_cropKey {k : FrameValue (Crop Float)} (h : k.frame ≤ Frame.limit) :
    Coded k.value.numbers k where
  wellFormed := by
    refine wellFormed_ofFields ?_
    simp [wellFormed_count, (coded_float _).wellFormed]
  hasNull_iff := by
    refine hasNull_ofFields.trans ?_
    simp [(coded_float _).hasNull_iff, Crop.numbers]
  readable_iff := by
    -- a key can be read if its numbers can, each as some number
    simp only [Crop.forall_numbers, reads_cropKey]
    constructor
    · rintro ⟨w, -, hx, hy, h_width, h_height⟩
      exact ⟨⟨_, hx⟩, ⟨_, hy⟩, ⟨_, h_width⟩, ⟨_, h_height⟩⟩
    · rintro ⟨⟨x, hx⟩, ⟨y, hy⟩, ⟨width, h_width⟩, ⟨height, h_height⟩⟩
      exact ⟨⟨k.frame, ⟨x, y, width, height⟩⟩, ⟨h, rfl⟩, hx, hy, h_width, h_height⟩

theorem coded_highlightKey {k : FrameValue (Highlight Float)} (h : k.frame ≤ Frame.limit) :
    Coded k.value.numbers k where
  wellFormed := by
    refine wellFormed_ofFields ?_
    simp [wellFormed_count, (coded_float _).wellFormed, (coded_string _).wellFormed]
  hasNull_iff := by
    refine hasNull_ofFields.trans ?_
    simp [(coded_float _).hasNull_iff, (coded_string _).hasNull_iff, Highlight.numbers]
  readable_iff := by
    simp only [Highlight.forall_numbers, reads_highlightKey, reads_string]
    constructor
    · rintro ⟨w, -, hx, hy, h_wide, h_high, h_opacity, -⟩
      exact ⟨⟨_, hx⟩, ⟨_, hy⟩, ⟨_, h_wide⟩, ⟨_, h_high⟩, ⟨_, h_opacity⟩⟩
    · rintro ⟨⟨x, hx⟩, ⟨y, hy⟩, ⟨radiusX, h_wide⟩, ⟨radiusY, h_high⟩, ⟨opacity, h_opacity⟩⟩
      exact ⟨⟨k.frame, ⟨x, y, radiusX, radiusY, opacity, k.value.color⟩⟩, ⟨h, rfl⟩, hx, hy, h_wide,
        h_high, h_opacity, rfl⟩

theorem coded_span (s : SpanExport Float) : Coded s.numbers s where
  wellFormed := by
    refine wellFormed_ofFields ?_
    simp [(coded_float _).wellFormed]
  hasNull_iff := by
    refine hasNull_ofFields.trans ?_
    simp [(coded_float _).hasNull_iff, SpanExport.numbers]
  readable_iff := by
    simp only [SpanExport.forall_numbers, reads_span]
    constructor
    · rintro ⟨w, h_start, h_stop, h_speed⟩
      exact ⟨⟨_, h_start⟩, ⟨_, h_stop⟩, ⟨_, h_speed⟩⟩
    · rintro ⟨⟨start, h_start⟩, ⟨stop, h_stop⟩, ⟨speed, h_speed⟩⟩
      exact ⟨⟨start, stop, speed⟩, h_start, h_stop, h_speed⟩

theorem coded_range (r : TimeRange Float) : Coded r.numbers r where
  wellFormed := by
    refine wellFormed_ofFields ?_
    simp [(coded_float _).wellFormed]
  hasNull_iff := by
    refine hasNull_ofFields.trans ?_
    simp [(coded_float _).hasNull_iff, TimeRange.numbers]
  readable_iff := by
    simp only [TimeRange.forall_numbers, reads_range]
    constructor
    · rintro ⟨w, h_start, h_stop⟩
      exact ⟨⟨_, h_start⟩, ⟨_, h_stop⟩⟩
    · rintro ⟨⟨start, h_start⟩, ⟨stop, h_stop⟩⟩
      exact ⟨⟨start, stop⟩, h_start, h_stop⟩

theorem coded_timeline (t : TimelineExport Float) : Coded t.numbers t := by
  have h_spans : Coded (t.spans.flatMap SpanExport.numbers) t.spans := .list fun s _ => coded_span s
  have h_range := coded_range t.trimRange
  -- a record is well-formed, free of nulls and readable if its parts are
  refine ⟨wellFormed_ofFields ?_, hasNull_ofFields.trans ?_, ?_⟩
  · simp [h_spans.wellFormed, h_range.wellFormed]
  · simp [h_spans.hasNull_iff, h_range.hasNull_iff, TimelineExport.numbers, or_and_right, exists_or]
  · rw [TimelineExport.numbers, List.forall_mem_append, ← h_spans.readable_iff,
      ← h_range.readable_iff]
    simp only [reads_timeline]
    constructor
    · rintro ⟨w, h_spans, h_range⟩
      exact ⟨⟨_, h_spans⟩, ⟨_, h_range⟩⟩
    · rintro ⟨⟨spans, h_spans⟩, ⟨range, h_range⟩⟩
      exact ⟨⟨spans, range⟩, h_spans, h_range⟩

theorem coded_highlight {h : HighlightExport Float}
    (h_frames : ∀ k ∈ h.keyframes, k.frame ≤ Frame.limit) : Coded h.numbers h := by
  have h_keys : Coded (h.keyframes.flatMap fun k => k.value.numbers) h.keyframes :=
    .list fun k hk => coded_highlightKey (h_frames k hk)
  refine ⟨wellFormed_ofFields ?_, hasNull_ofFields.trans ?_, ?_⟩
  · simp [h_keys.wellFormed, (coded_bool _).wellFormed, (coded_float _).wellFormed]
  · simp [h_keys.hasNull_iff, (coded_bool _).hasNull_iff, (coded_float _).hasNull_iff,
      HighlightExport.numbers]
  · rw [HighlightExport.numbers, List.forall_mem_cons, ← h_keys.readable_iff]
    simp only [reads_highlight, reads_bool]
    constructor
    · rintro ⟨w, -, h_duration, h_keyframes⟩
      exact ⟨⟨_, h_duration⟩, ⟨_, h_keyframes⟩⟩
    · rintro ⟨⟨duration, h_duration⟩, ⟨keyframes, h_keyframes⟩⟩
      exact ⟨⟨h.isEnabled, duration, keyframes⟩, rfl, h_duration, h_keyframes⟩

/-- **Frames that can be counted**, in both tracks of a payload. -/
structure Export.Counted {α : Type} (e : Export α) : Prop where
  crop : ∀ k ∈ e.crop, k.frame ≤ Frame.limit
  highlight : ∀ k ∈ e.highlight.keyframes, k.frame ≤ Frame.limit

/-- **A payload is as good as its numbers**, if its frames can be counted. -/
theorem coded_export {e : Export Float} (h : e.Counted) : Coded e.numbers e := by
  have h_crop : Coded (e.crop.flatMap fun k => k.value.numbers) e.crop :=
    .list fun k hk => coded_cropKey (h.crop k hk)
  have h_highlight := coded_highlight h.highlight
  have h_timeline := coded_timeline e.timeline
  -- the numbers of the payload are those of its three parts
  refine ⟨wellFormed_ofFields ?_, hasNull_ofFields.trans ?_, ?_⟩
  · simp [h_crop.wellFormed, h_highlight.wellFormed, h_timeline.wellFormed]
  · simp [h_crop.hasNull_iff, h_highlight.hasNull_iff, h_timeline.hasNull_iff, Export.numbers,
      or_and_right, exists_or]
  · rw [Export.numbers, List.forall_mem_append, List.forall_mem_append, ← h_crop.readable_iff,
      ← h_highlight.readable_iff, ← h_timeline.readable_iff]
    simp only [reads_export]
    constructor
    · rintro ⟨w, h_crop, h_highlight, h_timeline⟩
      exact ⟨⟨_, h_crop⟩, ⟨_, h_highlight⟩, ⟨_, h_timeline⟩⟩
    · rintro ⟨⟨crop, h_crop⟩, ⟨highlight, h_highlight⟩, ⟨timeline, h_timeline⟩⟩
      exact ⟨⟨crop, highlight, timeline⟩, h_crop, h_highlight, h_timeline⟩

end ClipEdit
