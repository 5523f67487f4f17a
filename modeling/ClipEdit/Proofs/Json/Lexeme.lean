import ClipEdit.Json.Printer
import ClipEdit.Json.Reader

/-!
# Numbers and string literals in a text

What is printed is read back, for the two parts of a JSON text that are not made of other values.

* `readNumber_text` — a number that is well formed is read as it was written, digit by digit, unless
  what follows would continue it (`Follows`);
* `readLiteral_text` — a string literal is read as its text, whatever characters it has.

A literal may follow anything and be followed by anything, since it ends in a quotation mark.
-/

namespace ClipEdit.Json

open Decimal (Digit)

/-! ### Numbers -/

/-- Text that does not begin with a digit. -/
def NoDigit (rest : List Char) : Prop := ∀ c ∈ rest.head?, Digit.ofChar? c = none

/-- **Text that may follow a number**: neither a digit nor anything else that would continue it. -/
def Follows (rest : List Char) : Prop :=
  ∀ c ∈ rest.head?, Digit.ofChar? c = none ∧ c ≠ '.' ∧ c ≠ 'e' ∧ c ≠ 'E'

/-- **A well-formed number**, as the reader accepts it: it has a whole part, which begins with a zero
only if it is one, and an exponent has digits. -/
structure Number.WellFormed (n : Number) : Prop where
  whole_ne_nil : n.whole ≠ []
  whole_eq_zero : n.whole.head? = some .zero → n.whole = [.zero]
  power_ne_nil : ∀ sign ds, n.exponent = some (sign, ds) → ds ≠ []

variable {n : Number} {rest : List Char}

theorem splitDigits_append (ds : List Digit) (h : NoDigit rest) :
    splitDigits (ds.map Digit.toChar ++ rest) = (ds, rest) := by
  induction ds with
  | nil =>
    cases rest with
    | nil => rfl
    | cons c cs => simp [splitDigits, h c rfl]
  | cons d ds ih => simp [splitDigits, ih]

theorem readWhole_append (h : n.WellFormed) (h_rest : NoDigit rest) :
    readWhole (n.whole.map Digit.toChar ++ rest) = some (n.whole, rest) := by
  obtain ⟨d, ds, h_whole⟩ := List.exists_cons_of_ne_nil h.whole_ne_nil
  rw [readWhole, splitDigits_append _ h_rest, h_whole]
  by_cases h_zero : d = .zero
  · have h_eq := h.whole_eq_zero (by rw [h_whole, h_zero]; rfl)
    rw [h_whole, List.cons.injEq] at h_eq
    obtain ⟨rfl, rfl⟩ := h_eq
    rfl
  · exact if_neg h_zero

/-- The characters of the part behind the decimal point. -/
def Number.fractionText (n : Number) : List Char :=
  if n.fraction.isEmpty then [] else '.' :: n.fraction.map Digit.toChar

/-- The characters of the exponent. -/
def Number.exponentText (n : Number) : List Char :=
  match n.exponent with
  | none => []
  | some (sign, ds) => 'e' :: Number.signText sign ++ ds.map Digit.toChar

theorem Number.text_eq (n : Number) :
    n.text = (if n.negative then ['-'] else []) ++
      (n.whole.map Digit.toChar ++ (n.fractionText ++ n.exponentText)) := by
  rw [Number.text, List.append_assoc, List.append_assoc]
  rfl

theorem noDigit_of_follows (h : Follows rest) : NoDigit rest := fun c hc => (h c hc).1

theorem noDigit_exponentText (h : Follows rest) : NoDigit (n.exponentText ++ rest) := by
  unfold Number.exponentText
  split
  · exact noDigit_of_follows h
  · rintro c ⟨⟩
    decide

theorem readFraction_append (h : Follows rest) :
    readFraction (n.fractionText ++ (n.exponentText ++ rest))
      = some (n.fraction, n.exponentText ++ rest) := by
  have h_rest := noDigit_exponentText (n := n) h
  unfold Number.fractionText
  cases h_fraction : n.fraction with
  | nil =>
    -- without a point, what follows must not look like one
    have h_point : ∀ cs, n.exponentText ++ rest ≠ '.' :: cs := by
      intro cs h_eq
      unfold Number.exponentText at h_eq
      split at h_eq
      · exact (h '.' (by rw [show rest = '.' :: cs from h_eq]; rfl)).2.1 rfl
      · simp at h_eq
    rw [List.isEmpty_nil, if_pos rfl, List.nil_append]
    unfold readFraction
    split
    · next cs h_eq => exact absurd h_eq (h_point cs)
    · rfl
  | cons d ds =>
    have h_split := splitDigits_append (d :: ds) h_rest
    rw [List.isEmpty_cons, if_neg Bool.false_ne_true, List.cons_append, readFraction, h_split]

theorem digit_ne_sign : ∀ d : Digit, d.toChar ≠ '+' ∧ d.toChar ≠ '-' := by decide

theorem readSign_append (sign : ExponentSign) (d : Digit) (cs : List Char) :
    readSign (Number.signText sign ++ d.toChar :: cs) = (sign, d.toChar :: cs) := by
  cases sign with
  | unsigned =>
    rw [Number.signText, List.nil_append, readSign]
    · exact fun cs h_eq => (digit_ne_sign d).1 (List.cons.inj h_eq).1
    · exact fun cs h_eq => (digit_ne_sign d).2 (List.cons.inj h_eq).1
  | plus => rfl
  | minus => rfl

theorem readExponent_append (h : n.WellFormed) (h_rest : Follows rest) :
    readExponent (n.exponentText ++ rest) = some (n.exponent, rest) := by
  unfold Number.exponentText
  cases h_exponent : n.exponent with
  | none =>
    -- without an exponent, what follows must not be taken for one
    unfold readExponent
    split
    · next cs h_eq =>
      have h_head : rest.head? = some 'e' := congrArg List.head? h_eq
      exact absurd rfl (h_rest 'e' h_head).2.2.1
    · next cs h_eq =>
      have h_head : rest.head? = some 'E' := congrArg List.head? h_eq
      exact absurd rfl (h_rest 'E' h_head).2.2.2
    · rfl
  | some power =>
    -- with one, its digits end where something else follows
    obtain ⟨sign, ds⟩ := power
    obtain ⟨d, ds, rfl⟩ := List.exists_cons_of_ne_nil (h.power_ne_nil sign ds h_exponent)
    have h_split := splitDigits_append (d :: ds) (noDigit_of_follows h_rest)
    have h_sign := readSign_append sign d (ds.map Digit.toChar ++ rest)
    simp only [List.map_cons, List.cons_append, List.append_assoc] at h_split h_sign ⊢
    simp only [readExponent, readPower, h_sign, h_split, Option.bind_eq_bind, Option.bind_some]

/-- **A number is read as it was written.** -/
theorem readNumber_text (h : n.WellFormed) (h_rest : Follows rest) :
    readNumber (n.text ++ rest) = some (n, rest) := by
  -- what follows the digits before the point is a point, an exponent, or what follows the number
  have h_noDigit : NoDigit (n.fractionText ++ (n.exponentText ++ rest)) := by
    unfold Number.fractionText
    split
    · exact noDigit_exponentText h_rest
    · rintro c ⟨⟩
      decide
  have h_magnitude : ∀ negative, readMagnitude negative
      (n.whole.map Digit.toChar ++ (n.fractionText ++ (n.exponentText ++ rest)))
        = some (⟨negative, n.whole, n.fraction, n.exponent⟩, rest) := by
    intro negative
    simp only [readMagnitude, readWhole_append h h_noDigit, readFraction_append h_rest,
      readExponent_append h h_rest, Option.bind_eq_bind, Option.bind_some]
  rw [Number.text_eq]
  simp only [List.append_assoc]
  cases h_negative : n.negative with
  | true =>
    rw [if_pos rfl, List.singleton_append, readNumber, h_magnitude, ← h_negative]
  | false =>
    -- a number without a sign begins with a digit, and no digit is a sign
    obtain ⟨d, ds, h_whole⟩ := List.exists_cons_of_ne_nil h.whole_ne_nil
    rw [if_neg Bool.false_ne_true, List.nil_append]
    have h_read := h_magnitude false
    rw [h_whole, List.map_cons, List.cons_append] at h_read ⊢
    rw [readNumber]
    · rw [h_read, ← h_whole, ← h_negative]
    · intro cs h_eq
      exact (digit_ne_sign d).2 (List.cons.inj h_eq).1

/-! ### String literals -/

theorem hexValue?_hexDigit : ∀ n : Fin 16, hexValue? (hexDigit n) = some n.val := by decide

/-- **A piece of a literal that is read as one code unit**, and the character that the unit stands
for. -/
structure ReadAs (text : List Char) (unit : CodeUnit) (c : Char) : Prop where
  read : ∀ cs, readUnits (text ++ cs)
    = (readUnits cs).map fun (units, rest) => (unit :: units, rest)
  join : ∀ units, joinUnits (unit :: units) = (c :: ·) <$> joinUnits units

/-- The characters with an escape of their own. -/
def shortEscapes : List Char := ['"', '\\', '\x08', '\t', '\n', '\x0c', '\r']

section Escapes

variable {c : Char}

theorem readAs_short (h : c ∈ shortEscapes) : ReadAs (escapeChar c) (.char c) c where
  read cs := by
    simp only [shortEscapes, List.mem_cons, List.not_mem_nil, or_false] at h
    rcases h with rfl | rfl | rfl | rfl | rfl | rfl | rfl <;>
      · change (readUnits cs).bind _ = _
        cases readUnits cs <;> rfl
  join _ := rfl

/-- What has no escape of its own is written in four hexadecimal digits, or as it is. -/
theorem escapeChar_of_not_mem (h : c ∉ shortEscapes) :
    escapeChar c = if c.toNat < 32 then
      ['\\', 'u', '0', '0', hexDigit (c.toNat / 16), hexDigit (c.toNat % 16)] else [c] := by
  simp only [shortEscapes, List.mem_cons, List.not_mem_nil, or_false, not_or] at h
  obtain ⟨h_quote, h_slash, h_back, h_tab, h_line, h_form, h_return⟩ := h
  rw [escapeChar, if_neg h_quote, if_neg h_slash, if_neg h_back, if_neg h_tab, if_neg h_line,
    if_neg h_form, if_neg h_return]

theorem readAs_control (h : c ∉ shortEscapes) (h_control : c.toNat < 32) :
    ReadAs (escapeChar c) (.escaped c.toNat) c where
  read cs := by
    have h_high := hexValue?_hexDigit ⟨c.toNat / 16, by omega⟩
    have h_low := hexValue?_hexDigit ⟨c.toNat % 16, by omega⟩
    have h_digits : 0 * 4096 + 0 * 256 + c.toNat / 16 * 16 + c.toNat % 16 = c.toNat := by omega
    have h_zero : hexValue? '0' = some 0 := rfl
    rw [escapeChar_of_not_mem h, if_pos h_control]
    simp only [List.cons_append, List.nil_append, readUnits, h_zero, h_high, h_low,
      Option.bind_eq_bind, Option.bind_some, h_digits]
    cases readUnits cs <;> rfl
  join units := by
    -- a control character is no surrogate
    have h_lead : isLeadSurrogate c.toNat = false := by
      simp only [isLeadSurrogate, Bool.and_eq_false_iff, decide_eq_false_iff_not]
      omega
    have h_trail : isTrailSurrogate c.toNat = false := by
      simp only [isTrailSurrogate, Bool.and_eq_false_iff, decide_eq_false_iff_not]
      omega
    rw [joinUnits.eq_def]
    dsimp only
    rw [h_lead, h_trail, if_neg Bool.false_ne_true, if_neg Bool.false_ne_true, Char.ofNat_toNat]

theorem readAs_plain (h : c ∉ shortEscapes) (h_control : ¬ c.toNat < 32) :
    ReadAs (escapeChar c) (.char c) c where
  read cs := by
    rw [escapeChar_of_not_mem h, if_neg h_control, List.singleton_append, readUnits,
      if_neg h_control]
    · cases readUnits cs <;> rfl
    -- neither a quotation mark nor a backslash has come this far
    · rintro rfl
      exact h (by decide)
    · rintro _ _ _ _ _ rfl -
      exact h (by decide)
    · rintro _ _ rfl -
      exact h (by decide)
  join _ := rfl

/-- **A character is read as one piece of the literal**, and that piece is the character. -/
theorem exists_readAs (c : Char) : ∃ unit, ReadAs (escapeChar c) unit c := by
  by_cases h : c ∈ shortEscapes
  · exact ⟨_, readAs_short h⟩
  · by_cases h_control : c.toNat < 32
    · exact ⟨_, readAs_control h h_control⟩
    · exact ⟨_, readAs_plain h h_control⟩

end Escapes

theorem readUnits_flatMap (cs rest : List Char) :
    ∃ units, readUnits (cs.flatMap escapeChar ++ '"' :: rest) = some (units, rest) ∧
      joinUnits units = some cs := by
  induction cs with
  | nil => exact ⟨[], rfl, rfl⟩
  | cons c cs ih =>
    obtain ⟨units, h_read, h_join⟩ := ih
    obtain ⟨unit, h_unit⟩ := exists_readAs c
    refine ⟨unit :: units, ?_, ?_⟩
    · rw [List.flatMap_cons, List.append_assoc, h_unit.read, h_read]
      rfl
    · rw [h_unit.join, h_join]
      rfl

/-- **A string literal is read as the text it was printed for.** -/
theorem readLiteral_text (s : String) (rest : List Char) :
    readLiteral (s.toList.flatMap escapeChar ++ '"' :: rest) = some (some s, rest) := by
  obtain ⟨units, h_read, h_join⟩ := readUnits_flatMap s.toList rest
  rw [readLiteral, h_read]
  simp [h_join]

end ClipEdit.Json
