import ClipEdit.Proofs.Json.Decoded
import ClipEdit.Proofs.Wire.Payload
import ClipEdit.Wire.Overlay
import ClipEdit.Wire.Settings

/-!
# Payloads, clippings and settings survive their texts

A payload, a clipping and settings are read from their own texts as themselves, provided that each of
their numbers is. Everything that is not a number is kept without a condition: names of fields, kinds,
colours with any characters, lists of any length, in both layouts.

* `restored_export`, `restored_clipping`, `restored_settings` — the texts give a value back exactly if
  every number in it is read back as itself;
* `decoded_export`, `isFinite_clipping`, `isFinite_settings` — what was decoded from any accepted text
  is again such a value: its frames can be counted and its numbers are finite;
* `restored_iff_numbers` — all of it.

Whether a number is read back as itself is left to the number. The reader multiplies or divides a
rounded significand by a rounded power of ten. For numbers with few digits nothing is lost by that, for
some with seventeen the result is a neighbour.
-/

namespace ClipEdit

open Json

/-! ### The numbers -/

section Numbers

variable {α : Type} {P : α → Prop}

/-- The numbers of a clipping. -/
def Clipping.numbers : Clipping α → List α
  | .crop c => c.numbers
  | .highlight h => h.numbers

/-- The numbers among settings. -/
def Settings.numbers (s : Settings α) : List α :=
  [s.boundaryEpsilon, s.hitRadiusFraction, s.minZoom, s.maxZoom, s.zoomStep]

theorem Settings.forall_numbers {s : Settings α} :
    (∀ x ∈ s.numbers, P x) ↔ P s.boundaryEpsilon ∧ P s.hitRadiusFraction ∧ P s.minZoom ∧
      P s.maxZoom ∧ P s.zoomStep := by simp [Settings.numbers]

end Numbers

/-! ### Payloads -/

theorem reads_self_cropKey {k : FrameValue (Crop Float)} (h : k.frame ≤ Frame.limit) :
    Reads k k ↔ ∀ x ∈ k.value.numbers, Reads x x := by
  rw [reads_cropKey, Crop.forall_numbers]
  exact and_iff_right ⟨h, rfl⟩

theorem reads_self_highlightKey {k : FrameValue (Highlight Float)} (h : k.frame ≤ Frame.limit) :
    Reads k k ↔ ∀ x ∈ k.value.numbers, Reads x x := by
  rw [reads_highlightKey, Highlight.forall_numbers, and_iff_right ⟨h, rfl⟩]
  simp only [reads_string, and_true]

theorem reads_self_span (s : SpanExport Float) : Reads s s ↔ ∀ x ∈ s.numbers, Reads x x := by
  rw [reads_span, SpanExport.forall_numbers]

theorem reads_self_timeline (t : TimelineExport Float) :
    Reads t t ↔ ∀ x ∈ t.numbers, Reads x x := by
  rw [reads_timeline, reads_self_list, reads_range, TimelineExport.numbers,
    List.forall_mem_append, List.forall_mem_flatMap, TimeRange.forall_numbers]
  exact and_congr_left' (forall₂_congr fun s _ => reads_self_span s)

theorem reads_self_highlight {h : HighlightExport Float}
    (h_frames : ∀ k ∈ h.keyframes, k.frame ≤ Frame.limit) :
    Reads h h ↔ ∀ x ∈ h.numbers, Reads x x := by
  rw [reads_highlight, reads_self_list, HighlightExport.numbers, List.forall_mem_cons,
    List.forall_mem_flatMap, and_iff_right (reads_bool.mpr rfl)]
  exact and_congr_right' (forall₂_congr fun k hk => reads_self_highlightKey (h_frames k hk))

/-- **A payload is given back by its texts** exactly if its numbers are. -/
theorem restored_export {e : Export Float} (h : e.Counted) :
    Restored e ↔ ∀ x ∈ e.numbers, Reads x x := by
  -- part by part; frames, flags and colours are read as themselves and drop out
  rw [restored_iff (coded_export h).wellFormed, reads_export, reads_self_list,
    reads_self_highlight h.highlight, reads_self_timeline, Export.numbers, List.forall_mem_append,
    List.forall_mem_append, List.forall_mem_flatMap]
  exact and_congr_left' (forall₂_congr fun k hk => reads_self_cropKey (h.crop k hk))

/-! ### Clippings -/

theorem reads_crop {c c' : Crop Float} :
    Reads c c' ↔ Reads c.x c'.x ∧ Reads c.y c'.y ∧ Reads c.width c'.width ∧
      Reads c.height c'.height := by
  refine (record_bind_eq_ok [("x", encode c.x), ("y", encode c.y), ("width", encode c.width),
    ("height", encode c.height)] (by simp)).trans ?_
  simp only [bind_eq_ok, pure_eq_ok, Record.get, Record.getWith, List.lookup, beq_self_eq_true,
    String.reduceBEq]
  constructor
  · rintro ⟨x, hx, y, hy, width, h_width, height, h_height, rfl⟩
    exact ⟨hx, hy, h_width, h_height⟩
  · rintro ⟨hx, hy, h_width, h_height⟩
    exact ⟨_, hx, _, hy, _, h_width, _, h_height, rfl⟩

theorem reads_highlightValue {h h' : Highlight Float} :
    Reads h h' ↔ Reads h.x h'.x ∧ Reads h.y h'.y ∧ Reads h.radiusX h'.radiusX ∧
      Reads h.radiusY h'.radiusY ∧ Reads h.opacity h'.opacity ∧ Reads h.color h'.color := by
  refine (record_bind_eq_ok [("x", encode h.x), ("y", encode h.y), ("radiusX", encode h.radiusX),
    ("radiusY", encode h.radiusY), ("opacity", encode h.opacity), ("color", encode h.color)]
    (by simp)).trans ?_
  simp only [bind_eq_ok, pure_eq_ok, Record.get, Record.getWith, List.lookup, beq_self_eq_true,
    String.reduceBEq]
  constructor
  · rintro ⟨x, hx, y, hy, radiusX, h_wide, radiusY, h_high, opacity, h_opacity, color, h_color, rfl⟩
    exact ⟨hx, hy, h_wide, h_high, h_opacity, h_color⟩
  · rintro ⟨hx, hy, h_wide, h_high, h_opacity, h_color⟩
    exact ⟨_, hx, _, hy, _, h_wide, _, h_high, _, h_opacity, _, h_color, rfl⟩

/-- The kind that is written decides how the value is decoded. -/
theorem decode_kind_value (kind : ClippingKind) (v : Json) :
    decode (ofFields [("kind", text kind.label), ("value", v)]) = kind.decodeValue v := by
  cases kind <;> rfl

theorem reads_clipping_crop {c c' : Crop Float} :
    Reads (Clipping.crop c) (.crop c') ↔ Reads c c' := by
  have h_decode : decode (encode (Clipping.crop c)) = ClippingKind.crop.decodeValue (encode c) :=
    decode_kind_value .crop (encode c)
  rw [Reads, Reads, h_decode, ClippingKind.decodeValue]
  cases (decode (encode c) : Except Json.Fault (Crop Float)) <;> simp

theorem reads_clipping_highlight {h h' : Highlight Float} :
    Reads (Clipping.highlight h) (.highlight h') ↔ Reads h h' := by
  have h_decode : decode (encode (Clipping.highlight h))
      = ClippingKind.highlight.decodeValue (encode h) := decode_kind_value .highlight (encode h)
  rw [Reads, Reads, h_decode, ClippingKind.decodeValue]
  cases (decode (encode h) : Except Json.Fault (Highlight Float)) <;> simp

theorem reads_self_clipping (k : Clipping Float) : Reads k k ↔ ∀ x ∈ k.numbers, Reads x x := by
  cases k with
  | crop c => rw [reads_clipping_crop, reads_crop, Clipping.numbers, Crop.forall_numbers]
  | highlight h =>
    rw [reads_clipping_highlight, reads_highlightValue, Clipping.numbers, Highlight.forall_numbers]
    simp only [reads_string, and_true]

theorem wellFormed_clipping (k : Clipping Float) : (encode k).WellFormed := by
  have h_text : ∀ s, (text s).WellFormed := fun s => .string s
  cases k with
  | crop c =>
    have h_value : (encode c).WellFormed :=
      wellFormed_ofFields (by simp [(coded_float _).wellFormed])
    exact wellFormed_ofFields (by simp [h_text, h_value])
  | highlight h =>
    have h_value : (encode h).WellFormed :=
      wellFormed_ofFields (by simp [(coded_float _).wellFormed, (coded_string _).wellFormed])
    exact wellFormed_ofFields (by simp [h_text, h_value])

/-- **A clipping is given back by its texts** exactly if its numbers are. -/
theorem restored_clipping (k : Clipping Float) : Restored k ↔ ∀ x ∈ k.numbers, Reads x x :=
  (restored_iff (wellFormed_clipping k)).trans (reads_self_clipping k)

/-! ### Settings -/

theorem reads_mergePolicy (p : MergePolicy) : Reads p p := by
  cases p <;> rfl

theorem reads_self_settings (s : Settings Float) : Reads s s ↔ ∀ x ∈ s.numbers, Reads x x := by
  -- the only field that is not a number
  have h_policy : decode (encode s.mergePolicy) = .ok s.mergePolicy := reads_mergePolicy s.mergePolicy
  rw [Settings.forall_numbers]
  refine (record_bind_eq_ok [("boundaryEpsilon", encode s.boundaryEpsilon),
    ("hitRadiusFraction", encode s.hitRadiusFraction), ("mergePolicy", encode s.mergePolicy),
    ("minZoom", encode s.minZoom), ("maxZoom", encode s.maxZoom), ("zoomStep", encode s.zoomStep)]
    (by simp)).trans ?_
  simp only [bind_eq_ok, pure_eq_ok, Record.getD, List.lookup, beq_self_eq_true,
    String.reduceBEq, h_policy]
  constructor
  · rintro ⟨epsilon, h_epsilon, radius, h_radius, policy, h_ok, minZoom, h_min, maxZoom, h_max, step,
      h_step, rfl⟩
    exact ⟨h_epsilon, h_radius, h_min, h_max, h_step⟩
  · rintro ⟨h_epsilon, h_radius, h_min, h_max, h_step⟩
    exact ⟨_, h_epsilon, _, h_radius, _, rfl, _, h_min, _, h_max, _, h_step, rfl⟩

theorem wellFormed_settings (s : Settings Float) : (encode s).WellFormed := by
  have h_policy : (encode s.mergePolicy).WellFormed := .string _
  exact wellFormed_ofFields (by simp [(coded_float _).wellFormed, h_policy])

/-- **Settings are given back by their texts** exactly if their numbers are. -/
theorem restored_settings (s : Settings Float) : Restored s ↔ ∀ x ∈ s.numbers, Reads x x :=
  (restored_iff (wellFormed_settings s)).trans (reads_self_settings s)

/-! ### What was decoded from other texts -/

theorem isFinite_crop {c : Crop Float} (h : Decoded c) : ∀ x ∈ c.numbers, x.isFinite = true := by
  obtain ⟨v, h_decode⟩ := h
  simp only [Wire.decode, bind_eq_ok, pure_eq_ok] at h_decode
  obtain ⟨r, -, x, hx, y, hy, width, h_width, height, h_height, rfl⟩ := h_decode
  exact Crop.forall_numbers.mpr ⟨r.isFinite_of_get hx, r.isFinite_of_get hy,
    r.isFinite_of_get h_width, r.isFinite_of_get h_height⟩

theorem isFinite_highlightValue {h : Highlight Float} (h_decoded : Decoded h) :
    ∀ x ∈ h.numbers, x.isFinite = true := by
  obtain ⟨v, h_decode⟩ := h_decoded
  simp only [Wire.decode, bind_eq_ok, pure_eq_ok] at h_decode
  obtain ⟨r, -, x, hx, y, hy, radiusX, h_wide, radiusY, h_high, opacity, h_opacity, color, -, rfl⟩ :=
    h_decode
  exact Highlight.forall_numbers.mpr ⟨r.isFinite_of_get hx, r.isFinite_of_get hy,
    r.isFinite_of_get h_wide, r.isFinite_of_get h_high, r.isFinite_of_get h_opacity⟩

theorem decoded_cropKey {k : FrameValue (Crop Float)} (h : Decoded k) :
    k.frame ≤ Frame.limit ∧ ∀ x ∈ k.value.numbers, x.isFinite = true := by
  obtain ⟨v, h_decode⟩ := h
  simp only [Wire.decode, bind_eq_ok, pure_eq_ok] at h_decode
  obtain ⟨r, -, frame, h_frame, x, hx, y, hy, width, h_width, height, h_height, rfl⟩ := h_decode
  refine ⟨r.le_of_getWith_countUpTo h_frame, Crop.forall_numbers.mpr ?_⟩
  exact ⟨r.isFinite_of_get hx, r.isFinite_of_get hy, r.isFinite_of_get h_width,
    r.isFinite_of_get h_height⟩

theorem decoded_highlightKey {k : FrameValue (Highlight Float)} (h : Decoded k) :
    k.frame ≤ Frame.limit ∧ ∀ x ∈ k.value.numbers, x.isFinite = true := by
  obtain ⟨v, h_decode⟩ := h
  simp only [Wire.decode, bind_eq_ok, pure_eq_ok] at h_decode
  obtain ⟨r, -, frame, h_frame, x, hx, y, hy, radiusX, h_wide, radiusY, h_high, opacity, h_opacity,
    color, -, rfl⟩ := h_decode
  refine ⟨r.le_of_getWith_countUpTo h_frame, Highlight.forall_numbers.mpr ?_⟩
  exact ⟨r.isFinite_of_get hx, r.isFinite_of_get hy, r.isFinite_of_get h_wide,
    r.isFinite_of_get h_high, r.isFinite_of_get h_opacity⟩

theorem isFinite_span {s : SpanExport Float} (h : Decoded s) :
    ∀ x ∈ s.numbers, x.isFinite = true := by
  obtain ⟨v, h_decode⟩ := h
  simp only [Wire.decode, bind_eq_ok, pure_eq_ok] at h_decode
  obtain ⟨r, -, start, h_start, stop, h_stop, speed, h_speed, rfl⟩ := h_decode
  exact SpanExport.forall_numbers.mpr
    ⟨r.isFinite_of_get h_start, r.isFinite_of_get h_stop, r.isFinite_of_get h_speed⟩

theorem isFinite_range {range : TimeRange Float} (h : Decoded range) :
    ∀ x ∈ range.numbers, x.isFinite = true := by
  obtain ⟨v, h_decode⟩ := h
  simp only [Wire.decode, bind_eq_ok, pure_eq_ok] at h_decode
  obtain ⟨r, -, start, h_start, stop, h_stop, rfl⟩ := h_decode
  exact TimeRange.forall_numbers.mpr ⟨r.isFinite_of_get h_start, r.isFinite_of_get h_stop⟩

theorem isFinite_timeline {t : TimelineExport Float} (h : Decoded t) :
    ∀ x ∈ t.numbers, x.isFinite = true := by
  obtain ⟨v, h_decode⟩ := h
  simp only [Wire.decode, bind_eq_ok, pure_eq_ok] at h_decode
  obtain ⟨r, -, spans, h_spans, range, h_range, rfl⟩ := h_decode
  rw [TimelineExport.numbers, List.forall_mem_append, List.forall_mem_flatMap]
  exact ⟨fun s hs => isFinite_span ((r.decoded_of_get h_spans).of_mem s hs),
    isFinite_range (r.decoded_of_get h_range)⟩

theorem decoded_highlight {h : HighlightExport Float} (h_decoded : Decoded h) :
    (∀ k ∈ h.keyframes, k.frame ≤ Frame.limit) ∧ ∀ x ∈ h.numbers, x.isFinite = true := by
  obtain ⟨v, h_decode⟩ := h_decoded
  simp only [Wire.decode, bind_eq_ok, pure_eq_ok] at h_decode
  obtain ⟨r, -, enabled, -, duration, h_duration, keyframes, h_keyframes, rfl⟩ := h_decode
  have h_keys := (r.decoded_of_get h_keyframes).of_mem
  rw [HighlightExport.numbers, List.forall_mem_cons, List.forall_mem_flatMap]
  exact ⟨fun k hk => (decoded_highlightKey (h_keys k hk)).1, r.isFinite_of_get h_duration,
    fun k hk => (decoded_highlightKey (h_keys k hk)).2⟩

/-- **A payload from any text** has frames that can be counted and finite numbers. -/
theorem decoded_export {e : Export Float} (h : Decoded e) :
    e.Counted ∧ ∀ x ∈ e.numbers, x.isFinite = true := by
  obtain ⟨v, h_decode⟩ := h
  simp only [Wire.decode, bind_eq_ok, pure_eq_ok] at h_decode
  obtain ⟨r, -, crop, h_crop, highlight, h_highlight, timeline, h_timeline, rfl⟩ := h_decode
  have h_keys := (r.decoded_of_get h_crop).of_mem
  obtain ⟨h_frames, h_finite⟩ := decoded_highlight (r.decoded_of_get h_highlight)
  refine ⟨⟨fun k hk => (decoded_cropKey (h_keys k hk)).1, h_frames⟩, ?_⟩
  rw [Export.numbers, List.forall_mem_append, List.forall_mem_append, List.forall_mem_flatMap]
  exact ⟨fun k hk => (decoded_cropKey (h_keys k hk)).2, h_finite,
    isFinite_timeline (r.decoded_of_get h_timeline)⟩

theorem isFinite_decodeValue {kind : ClippingKind} {v : Json} {k : Clipping Float}
    (h : kind.decodeValue v = .ok k) : ∀ x ∈ k.numbers, x.isFinite = true := by
  cases kind with
  | crop =>
    change (decode v : Except Json.Fault (Crop Float)).map Clipping.crop = _ at h
    -- the value is decoded first, and only a value that was decoded is wrapped
    cases h_value : (decode v : Except Json.Fault (Crop Float)) with
    | error fault => exact absurd h (by simp [h_value, Except.map])
    | ok c =>
      rw [h_value] at h
      exact Except.ok.inj h ▸ isFinite_crop ⟨v, h_value⟩
  | highlight =>
    change (decode v : Except Json.Fault (Highlight Float)).map Clipping.highlight = _ at h
    cases h_value : (decode v : Except Json.Fault (Highlight Float)) with
    | error fault => exact absurd h (by simp [h_value, Except.map])
    | ok c =>
      rw [h_value] at h
      exact Except.ok.inj h ▸ isFinite_highlightValue ⟨v, h_value⟩

/-- Whether the kind comes before the value or behind it, the value is decoded as that kind. -/
theorem isFinite_ofFields {fields : List (String × Json)} {k : Clipping Float}
    (h : Clipping.ofFields fields = .ok k) : ∀ x ∈ k.numbers, x.isFinite = true := by
  unfold Clipping.ofFields at h
  split at h
  -- the kind first, the value first, and anything else, which is refused
  · obtain ⟨kind, -, h_value⟩ := bind_eq_ok.mp h
    exact isFinite_decodeValue h_value
  · split at h
    · obtain ⟨kind, -, h_value⟩ := bind_eq_ok.mp h
      exact isFinite_decodeValue h_value
    · exact absurd h (by simp)
  · split at h <;> exact absurd h (by simp)

/-- **A clipping from any text** has finite numbers, wherever its kind was named. -/
theorem isFinite_clipping {k : Clipping Float} (h : Decoded k) :
    ∀ x ∈ k.numbers, x.isFinite = true := by
  obtain ⟨v, h_decode⟩ := h
  simp only [Wire.decode] at h_decode
  split at h_decode
  · obtain ⟨fields, -, h_fields⟩ := bind_eq_ok.mp h_decode
    exact isFinite_ofFields h_fields
  · obtain ⟨kind, -, h_value⟩ := bind_eq_ok.mp h_decode
    exact isFinite_decodeValue h_value
  · exact absurd h_decode (by simp)

/-- **Settings from any text** have finite numbers, those that were left out among them. -/
theorem isFinite_settings {s : Settings Float} (h : Decoded s) :
    ∀ x ∈ s.numbers, x.isFinite = true := by
  obtain ⟨v, h_decode⟩ := h
  simp only [Wire.decode, bind_eq_ok, pure_eq_ok] at h_decode
  obtain ⟨r, -, epsilon, h_epsilon, radius, h_radius, policy, -, minZoom, h_min, maxZoom, h_max,
    step, h_step, rfl⟩ := h_decode
  -- a field that was left out has its default, which is finite
  obtain ⟨hd_epsilon, hd_radius, hd_min, hd_max, hd_step⟩ := Settings.forall_numbers.mp
    (show ∀ x ∈ (Settings.default : Settings Float).numbers, x.isFinite = true by decide +kernel)
  exact Settings.forall_numbers.mpr ⟨r.isFinite_of_getD hd_epsilon h_epsilon,
    r.isFinite_of_getD hd_radius h_radius, r.isFinite_of_getD hd_min h_min,
    r.isFinite_of_getD hd_max h_max, r.isFinite_of_getD hd_step h_step⟩

/-! ### All three -/

/-- **Payloads, clippings and settings survive their texts.** A payload whose frames can be counted, a
clipping and settings are read from both of their texts as themselves exactly if each of their numbers
is read back as itself. What was read from any text that is accepted has finite numbers, and its own
texts give it back under the same condition. -/
theorem restored_iff_numbers :
    (∀ e : Export Float, e.Counted → (Restored e ↔ ∀ x ∈ e.numbers, Reads x x)) ∧
      (∀ k : Clipping Float, Restored k ↔ ∀ x ∈ k.numbers, Reads x x) ∧
      (∀ s : Settings Float, Restored s ↔ ∀ x ∈ s.numbers, Reads x x) ∧
      (∀ input (e : Export Float), decodeText (Export Float) input = .ok e →
        (∀ x ∈ e.numbers, x.isFinite = true) ∧ (Restored e ↔ ∀ x ∈ e.numbers, Reads x x)) ∧
      (∀ input (k : Clipping Float), decodeText (Clipping Float) input = .ok k →
        (∀ x ∈ k.numbers, x.isFinite = true) ∧ (Restored k ↔ ∀ x ∈ k.numbers, Reads x x)) ∧
      ∀ input (s : Settings Float), decodeText (Settings Float) input = .ok s →
        (∀ x ∈ s.numbers, x.isFinite = true) ∧ (Restored s ↔ ∀ x ∈ s.numbers, Reads x x) := by
  refine ⟨fun e => restored_export, restored_clipping, restored_settings, ?_, ?_, ?_⟩
  · -- what was accepted was decoded from numbers in the text, and those are finite
    intro input e h_accepted
    obtain ⟨h_counted, h_finite⟩ := decoded_export (decoded_of_decodeText h_accepted)
    exact ⟨h_finite, restored_export h_counted⟩
  · intro input k h_accepted
    exact ⟨isFinite_clipping (decoded_of_decodeText h_accepted), restored_clipping k⟩
  · intro input s h_accepted
    exact ⟨isFinite_settings (decoded_of_decodeText h_accepted), restored_settings s⟩

/-- Not every number is read back as itself: of this one the reader gets a neighbour. -/
example : ¬ Reads (92392.66666666667 : Float) 92392.66666666667 := by
  unfold Reads
  decide +kernel

/-- A payload whose colour has a quotation mark, a backslash, a control character and a letter that is
not ASCII; a payload from a text with the fields in another order, records as arrays and a field that
nobody knows; a clipping whose kind was named behind its value; settings that were left out but for
one. -/
theorem restored_iff_numbers_of_odd_texts :
    ∃ (e e' : Export Float) (k : Clipping Float) (s : Settings Float),
      e.highlight.keyframes.map (fun k => k.value.color) = ["\"\\\x01\x08é"] ∧
      e.Counted ∧ Restored e ∧
      decodeText (Export Float) ("\x7b\"segmentData\":\x7b\"trimRange\":[0,1],\"segments\":[]\x7d,"
        ++ "\"more\":[null],\"highlight\":[false,1e0,[]],\"cropKeyframes\":[[7,1,2,3,4]]\x7d") = .ok e' ∧
      e'.crop = [⟨7, ⟨1, 2, 3, 4⟩⟩] ∧ Restored e' ∧
      decodeText (Clipping Float) ("\x7b\"value\":[1,2.50,3e2,4],\"kind\":\"crop\"\x7d") = .ok k ∧
      k = .crop ⟨1, 2.5, 300, 4⟩ ∧ Restored k ∧
      decodeText (Settings Float) ("\x7b \"minZoom\": 0.25 \x7d") = .ok s ∧
      s = { Settings.default with minZoom := 0.25 } ∧ Restored s := by
  obtain ⟨h_export, -, -, h_payload, h_clipping, h_settings⟩ := restored_iff_numbers
  obtain ⟨e, h_e⟩ : ∃ e : Export Float, e = ⟨[⟨0, ⟨0, 0.5, 1920, 1080⟩⟩],
      ⟨true, 2.5, [⟨Frame.limit, ⟨960, 540, 100.125, 150, 0.15, "\"\\\x01\x08é"⟩⟩]⟩,
      ⟨[⟨0, 4, 2⟩, ⟨4, 10, 0.333⟩], ⟨4, 10⟩⟩⟩ := ⟨_, rfl⟩
  have h_counted : e.Counted := by
    rw [h_e]
    exact ⟨by decide, by decide⟩
  have h_exact : ∀ x ∈ e.numbers, Reads x x := by
    rw [h_e]
    unfold Reads
    decide +kernel
  -- the other three come from texts, and the numbers in them are read back as themselves
  have h_read : decodeText (Export Float)
      ("\x7b\"segmentData\":\x7b\"trimRange\":[0,1],\"segments\":[]\x7d,"
        ++ "\"more\":[null],\"highlight\":[false,1e0,[]],\"cropKeyframes\":[[7,1,2,3,4]]\x7d")
      = .ok ⟨[⟨7, ⟨1, 2, 3, 4⟩⟩], ⟨false, 1, []⟩, ⟨[], ⟨0, 1⟩⟩⟩ := by
    decide +kernel
  have h_read' : decodeText (Clipping Float)
      ("\x7b\"value\":[1,2.50,3e2,4],\"kind\":\"crop\"\x7d") = .ok (.crop ⟨1, 2.5, 300, 4⟩) := by
    decide +kernel
  have h_read'' : decodeText (Settings Float) ("\x7b \"minZoom\": 0.25 \x7d")
      = .ok { Settings.default with minZoom := 0.25 } := by
    decide +kernel
  refine ⟨e, _, _, _, by rw [h_e]; rfl, h_counted, (h_export e h_counted).mpr h_exact,
    h_read, rfl, (h_payload _ _ h_read).2.mpr ?_, h_read', rfl, (h_clipping _ _ h_read').2.mpr ?_,
    h_read'', rfl, (h_settings _ _ h_read'').2.mpr ?_⟩ <;>
  · unfold Reads
    decide +kernel

end ClipEdit
