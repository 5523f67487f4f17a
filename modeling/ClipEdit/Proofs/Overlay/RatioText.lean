import ClipEdit.Overlay.AspectRatio
import ClipEdit.Proofs.Decimal.Layout
import Mathlib.Data.List.DropRight
import Mathlib.Data.List.Forall2

/-!
# Texts of aspect ratios

What texts name an aspect ratio, said as a grammar and not by a reader. A text names a ratio if what
is left without the blanks around it (`Text.Trimmed`)

* is the word for no lock, each letter of it small or a capital (`SpellsFree`), or
* has a first colon, with a part before it and a part behind it. Each part, again without the blanks
  around it, is a numeral (`Decimal.Numeral`): at least one ASCII digit, perhaps behind a plus sign,
  for a number from `1` up to the limit.

The strict reader accepts exactly these texts, and gives the ratio that they name
(`parse_eq_ok_iff`). Any other text is a fault that carries the text as it was given
(`parse_eq_error_iff`). What is written for a ratio names that ratio (`names_text`), so writing and
reading is the identity.
-/

namespace ClipEdit

open Decimal (Digit)

/-! ### Blanks around a text -/

namespace Text

variable {cs core : List Char}

/-- **A text without the blanks around it**: nothing but blanks was taken away at its two ends, and
neither end of what is left is a blank. -/
structure Trimmed (cs core : List Char) : Prop where
  exists_blanks : ∃ before behind, cs = before ++ core ++ behind ∧
    (∀ c ∈ before, isBlank c = true) ∧ ∀ c ∈ behind, isBlank c = true
  head : ∀ c, core.head? = some c → isBlank c = false
  last : ∀ c, core.getLast? = some c → isBlank c = false

/-- A text without blanks has none to lose. -/
theorem Trimmed.self (h : ∀ c ∈ cs, isBlank c = false) : Trimmed cs cs where
  exists_blanks := ⟨[], [], by simp, by simp, by simp⟩
  head c h_head := h c (List.mem_of_mem_head? h_head)
  last c h_last := h c (List.mem_of_mem_getLast? h_last)

/-- Blanks are dropped up to the first character that is none. -/
theorem isBlank_head?_dropWhile {c : Char} (h : (cs.dropWhile isBlank).head? = some c) :
    isBlank c = false := by
  have h_head := List.head?_dropWhile_not isBlank cs
  rw [h] at h_head
  exact h_head

/-- Blanks in front of a character that is none are dropped, and no more than those. -/
theorem dropWhile_blanks_append {before rest : List Char}
    (h_before : ∀ c ∈ before, isBlank c = true)
    (h_rest : ∀ c, rest.head? = some c → isBlank c = false) :
    (before ++ rest).dropWhile isBlank = rest := by
  rw [List.dropWhile_append_of_pos h_before]
  cases rest with
  | nil => rfl
  | cons c rest => exact List.dropWhile_cons_of_neg (by simp [h_rest c rfl])

/-- **Trimming takes the blanks off both ends.** -/
theorem trimmed_trim (cs : List Char) : Trimmed cs (trim cs) := by
  -- what is dropped in front, and what is dropped behind from the rest
  have h_front := List.takeWhile_append_dropWhile (p := isBlank) (l := cs)
  have h_behind := List.rdropWhile_append_rtakeWhile (p := isBlank) (l := cs.dropWhile isBlank)
  refine ⟨⟨cs.takeWhile isBlank, (cs.dropWhile isBlank).rtakeWhile isBlank, ?_, ?_, ?_⟩, ?_, ?_⟩
  · change cs = cs.takeWhile isBlank ++ (cs.dropWhile isBlank).rdropWhile isBlank ++ _
    rw [List.append_assoc, h_behind, h_front]
  · exact fun c h_mem => List.mem_takeWhile_imp h_mem
  · exact fun c h_mem => List.mem_rtakeWhile_imp h_mem
  · -- the first character is that of the text without the blanks in front
    intro c h_head
    obtain ⟨behind, h_eq⟩ := List.rdropWhile_prefix isBlank (l := cs.dropWhile isBlank)
    have h_first : (cs.dropWhile isBlank).head? = some c := by
      rw [← h_eq, List.head?_append]
      change (trim cs).head?.or _ = _
      rw [h_head]
      rfl
    exact isBlank_head?_dropWhile h_first
  · intro c h_last
    rw [trim, List.getLast?_reverse] at h_last
    exact isBlank_head?_dropWhile h_last

/-- Nothing else is a text without the blanks around it. -/
theorem Trimmed.trim_eq (h : Trimmed cs core) : trim cs = core := by
  obtain ⟨⟨before, behind, rfl, h_before, h_behind⟩, h_head, h_last⟩ := h
  rw [trim, List.append_assoc]
  cases core with
  | nil =>
    -- everything is blank
    have h_all : ∀ c ∈ before ++ behind, isBlank c = true :=
      List.forall_mem_append.mpr ⟨h_before, h_behind⟩
    rw [List.nil_append, List.dropWhile_eq_nil_iff.mpr h_all]
    rfl
  | cons first rest =>
    have h_front : (before ++ (first :: rest ++ behind)).dropWhile isBlank =
        first :: rest ++ behind := dropWhile_blanks_append h_before h_head
    rw [h_front, List.reverse_append, dropWhile_blanks_append (by simpa using h_behind),
      List.reverse_reverse]
    intro c h_first
    rw [List.head?_reverse] at h_first
    exact h_last c h_first

end Text

/-! ### Numerals -/

namespace Decimal

variable {cs : List Char} {n : ℕ}

/-- **Digits that denote a number**, at least one of them. -/
inductive Digits : List Char → ℕ → Prop
  | one (d : Digit) : Digits [d.toChar] d
  | more {cs : List Char} {n : ℕ} (h : Digits cs n) (d : Digit) :
      Digits (cs ++ [d.toChar]) (10 * n + d)

/-- **A numeral**: digits, perhaps behind a plus sign. -/
inductive Numeral : List Char → ℕ → Prop
  | plain {cs : List Char} {n : ℕ} (h : Digits cs n) : Numeral cs n
  | signed {cs : List Char} {n : ℕ} (h : Digits cs n) : Numeral ('+' :: cs) n

/-- Only the character of a digit is read as that digit. -/
theorem ofChar?_eq_some_iff {c : Char} {d : Digit} : Digit.ofChar? c = some d ↔ c = d.toChar := by
  constructor
  · intro h
    unfold Digit.ofChar? at h
    split at h
    · next h_range =>
      obtain rfl := Option.some.inj h
      have h_sum : 48 + (c.toNat - 48) = c.toNat := by omega
      change c = Char.ofNat (48 + (c.toNat - 48))
      rw [h_sum, Char.ofNat_toNat]
    · exact absurd h (by simp)
  · rintro rfl
    exact Digit.ofChar?_toChar d

/-- So are the characters of several digits. -/
theorem mapM_ofChar?_eq_some_iff {ds : List Digit} :
    cs.mapM Digit.ofChar? = some ds ↔ cs = ds.map Digit.toChar := by
  induction cs generalizing ds with
  | nil => cases ds <;> simp
  | cons c cs ih =>
    simp only [List.mapM_cons, Option.bind_eq_bind, Option.bind_eq_some_iff, ofChar?_eq_some_iff,
      ih, Option.pure_def, Option.some.injEq]
    constructor
    · rintro ⟨d, rfl, rest, rfl, rfl⟩
      rfl
    · intro h
      obtain ⟨d, rest, rfl, h_first, h_rest⟩ := List.map_eq_cons_iff.mp h.symm
      exact ⟨d, h_first.symm, rest, h_rest.symm, rfl⟩

/-- Digits denote the value of their list. -/
theorem digits_iff : Digits cs n ↔ ∃ ds : List Digit, ds ≠ [] ∧ cs = ds.map Digit.toChar ∧
    value ds = n := by
  constructor
  · -- a numeral is built digit by digit from the front, as a list is from its end
    intro h
    induction h with
    | one d => exact ⟨[d], by simp, rfl, by simp [value]⟩
    | more _ d ih =>
      obtain ⟨ds, -, rfl, rfl⟩ := ih
      exact ⟨ds ++ [d], by simp, by simp, value_append_singleton ds d⟩
  · rintro ⟨ds, h_ne, rfl, rfl⟩
    -- so the list is taken apart at its end, too
    induction ds using List.reverseRecOn with
    | nil => exact absurd rfl h_ne
    | append_singleton ds d ih =>
      rw [List.map_append, List.map_singleton, value_append_singleton]
      rcases ds.eq_nil_or_concat with rfl | h_more
      · simpa [value] using Digits.one d
      · refine .more (ih ?_) d
        rintro rfl
        simp at h_more

/-- No sign begins a list of digits. -/
theorem Digits.head?_ne (h : Digits cs n) : cs.head? ≠ some '+' := by
  obtain ⟨ds, h_ne, rfl, -⟩ := digits_iff.mp h
  have h_sign : ∀ d : Digit, d.toChar ≠ '+' := by decide
  cases ds with
  | nil => exact absurd rfl h_ne
  | cons d ds => simpa using h_sign d

/-- A number is denoted by its own digits. -/
theorem digits_digits (n : ℕ) : Digits ((digits n).map Digit.toChar) n :=
  digits_iff.mpr ⟨digits n, digits_ne_nil n, rfl, value_digits n⟩

end Decimal

namespace AspectRatio

open Decimal Text

variable {cs before behind : List Char} {n w h : ℕ} {c letter : Char} {ratio : AspectRatio}

/-! ### The grammar -/

/-- The word for no lock. -/
def freeWord : List Char := ['f', 'r', 'e', 'e']

/-- The word for no lock, each letter small or a capital. -/
def SpellsFree (cs : List Char) : Prop :=
  List.Forall₂ (fun c letter => c = letter ∨ c = letter.toUpper) cs freeWord

/-- One side of the colon, possibly between blanks: a numeral for a number that may stand there. -/
structure NamesPart (cs : List Char) (n : ℕ) : Prop where
  numeral : ∃ core, Trimmed cs core ∧ Numeral core n
  one_le : 1 ≤ n
  le_limit : n ≤ partLimit

/-- What a text without blanks around it names. -/
inductive NamesTrimmed (cs : List Char) : AspectRatio → Prop
  | free (h_word : SpellsFree cs) : NamesTrimmed cs .free
  | fixed {before behind : List Char} {w h : ℕ} (h_split : cs = before ++ ':' :: behind)
      (h_first : ':' ∉ before) (h_w : NamesPart before w) (h_h : NamesPart behind h) :
      NamesTrimmed cs (.fixed w h)

/-- **The aspect ratio that a text names**, if any. -/
def Names (cs : List Char) (ratio : AspectRatio) : Prop :=
  ∃ core, Trimmed cs core ∧ NamesTrimmed core ratio

/-- A ratio that can be locked: none, or two numbers that may stand around a colon. -/
def Proper : AspectRatio → Prop
  | free => True
  | fixed w h => (1 ≤ w ∧ w ≤ partLimit) ∧ 1 ≤ h ∧ h ≤ partLimit

/-! ### The reader -/

/-- Lower case is that of ASCII: a character becomes a letter of the word only if it is that letter
or its capital. -/
theorem lowerAscii_eq_iff (h : letter ∈ freeWord) :
    lowerAscii c = letter ↔ c = letter ∨ c = letter.toUpper := by
  -- the letters of the word are few, and so are the capitals of ASCII
  have h_small : freeWord.Forall fun letter =>
      lowerAscii letter = letter ∧ lowerAscii letter.toUpper = letter := by decide
  have h_capital : freeWord.Forall fun letter => ∀ n < 91, Char.ofNat (n + 32) = letter →
      Char.ofNat n = letter.toUpper := by decide
  constructor
  · intro h_eq
    unfold lowerAscii at h_eq
    split at h_eq
    · next h_range =>
      -- only a capital is changed
      have h_le : c.toNat ≤ 90 := UInt32.le_iff_toNat_le.mp h_range.2
      refine Or.inr ?_
      rw [← List.forall_iff_forall_mem.mp h_capital letter h c.toNat (Nat.lt_succ_of_le h_le) h_eq,
        Char.ofNat_toNat]
    · exact Or.inl h_eq
  · obtain ⟨h_self, h_upper⟩ := List.forall_iff_forall_mem.mp h_small letter h
    rintro (rfl | rfl)
    · exact h_self
    · exact h_upper

theorem map_lowerAscii_eq_iff : cs.map lowerAscii = freeWord ↔ SpellsFree cs := by
  -- letter by letter, for any letters of the word
  have h_letters : ∀ letters : List Char, (∀ letter ∈ letters, letter ∈ freeWord) → ∀ cs,
      cs.map lowerAscii = letters ↔
        List.Forall₂ (fun c letter => c = letter ∨ c = letter.toUpper) cs letters := by
    intro letters
    induction letters with
    | nil => simp
    | cons letter letters ih =>
      intro h_mem cs
      obtain ⟨h_letter, h_rest⟩ := List.forall_mem_cons.mp h_mem
      simp only [List.map_eq_cons_iff, List.forall₂_cons_right_iff, lowerAscii_eq_iff h_letter,
        ih h_rest]
      constructor
      · rintro ⟨c, cs, rfl, h_c, h_cs⟩
        exact ⟨c, cs, h_c, h_cs, rfl⟩
      · rintro ⟨c, cs, h_c, h_cs, rfl⟩
        exact ⟨c, cs, rfl, h_c, h_cs⟩
  exact h_letters freeWord (fun _ h => h) cs

/-- The word has no colon. -/
theorem SpellsFree.not_mem_colon (h : SpellsFree cs) : ':' ∉ cs := by
  intro h_mem
  have h_lower : lowerAscii ':' ∈ freeWord :=
    map_lowerAscii_eq_iff.mpr h ▸ List.mem_map_of_mem h_mem
  exact absurd h_lower (by decide)

/-- A text is split at its first colon. -/
theorem splitColon_eq_some_iff :
    splitColon cs = some (before, behind) ↔ cs = before ++ ':' :: behind ∧ ':' ∉ before := by
  induction cs generalizing before with
  | nil => simp [splitColon]
  | cons c cs ih =>
    rw [splitColon]
    split
    · next h_colon =>
      subst h_colon
      -- the part before it is empty, as it has no colon
      cases before with
      | nil => simp
      | cons c' before =>
        refine ⟨fun h => by simp at h, fun h => ?_⟩
        obtain ⟨h_eq, h_not⟩ := h
        obtain ⟨rfl, -⟩ := List.cons_eq_cons.mp h_eq
        exact absurd List.mem_cons_self h_not
    · -- the first character belongs to the part before the colon, on both sides
      next h_other =>
      simp only [Option.map_eq_some_iff, Prod.exists, Prod.mk.injEq]
      constructor
      · rintro ⟨before', behind', h_split, rfl, rfl⟩
        obtain ⟨rfl, h_not⟩ := ih.mp h_split
        exact ⟨rfl, List.not_mem_cons_of_ne_of_not_mem (Ne.symm h_other) h_not⟩
      · rintro ⟨h_eq, h_not⟩
        cases before with
        | nil => exact absurd (List.cons_eq_cons.mp h_eq).1 h_other
        | cons c' before =>
          obtain ⟨rfl, rfl⟩ := List.cons_eq_cons.mp h_eq
          exact ⟨before, behind, ih.mpr ⟨rfl, List.not_mem_of_not_mem_cons h_not⟩, rfl, rfl⟩

/-- Behind a plus sign, digits are read for a number up to the limit. -/
theorem parsePart_signed : parsePart ('+' :: cs) = some n ↔ Digits cs n ∧ n ≤ partLimit := by
  simp only [parsePart, digits_iff]
  cases h_read : cs.mapM Digit.ofChar? with
  -- some character is no digit, so this is no numeral
  | none =>
    refine ⟨fun h => by simp at h, ?_⟩
    rintro ⟨⟨ds, -, h_eq, -⟩, -⟩
    rw [mapM_ofChar?_eq_some_iff.mpr h_eq] at h_read
    exact absurd h_read (by simp)
  | some ds =>
    -- all of them are digits
    obtain rfl := mapM_ofChar?_eq_some_iff.mp h_read
    cases ds with
    -- but there has to be one
    | nil => simp
    | cons d ds =>
      simp only [List.map_cons, List.isEmpty_cons, Bool.false_eq_true, if_false]
      -- a part has the value of its digits, if that is not too large
      constructor
      · intro h
        split at h
        · next h_le =>
          obtain rfl := Option.some.inj h
          exact ⟨⟨d :: ds, by simp, rfl, rfl⟩, h_le⟩
        · exact absurd h (by simp)
      · rintro ⟨⟨ds', -, h_eq, rfl⟩, h_le⟩
        have h_same : some (d :: ds) = some ds' :=
          h_read.symm.trans (mapM_ofChar?_eq_some_iff.mpr h_eq)
        rw [Option.some.inj h_same, if_pos h_le]

/-- A plus sign makes no difference to what has none. -/
theorem parsePart_of_unsigned (h : cs.head? ≠ some '+') : parsePart cs = parsePart ('+' :: cs) := by
  unfold parsePart
  split
  · exact absurd rfl h
  · rfl

/-- **A part is read exactly if it is a numeral** for a number up to the limit. -/
theorem parsePart_eq_some_iff : parsePart cs = some n ↔ Numeral cs n ∧ n ≤ partLimit := by
  by_cases h_sign : cs.head? = some '+'
  · obtain ⟨rest, rfl⟩ := List.head?_eq_some_iff.mp h_sign
    rw [parsePart_signed]
    constructor
    · rintro ⟨h_rest, h_le⟩
      exact ⟨.signed h_rest, h_le⟩
    · -- a plain numeral does not begin with a sign
      rintro ⟨h_numeral, h_le⟩
      cases h_numeral with
      | plain h_all => exact absurd rfl h_all.head?_ne
      | signed h_rest => exact ⟨h_rest, h_le⟩
  · rw [parsePart_of_unsigned h_sign, parsePart_signed]
    constructor
    · rintro ⟨h_all, h_le⟩
      exact ⟨.plain h_all, h_le⟩
    · rintro ⟨h_numeral, h_le⟩
      cases h_numeral with
      | plain h_all => exact ⟨h_all, h_le⟩
      | signed h_rest => exact absurd rfl h_sign

/-- **A text without blanks around it** is read exactly as what it names. -/
theorem parseTrimmed_eq_some_iff : parseTrimmed cs = some ratio ↔ NamesTrimmed cs ratio := by
  unfold parseTrimmed
  split
  · next h_word =>
    -- the word, in whatever case: no ratio is named by it, since there is no colon in it
    have h_free := map_lowerAscii_eq_iff.mp h_word
    constructor
    · intro h
      obtain rfl := Option.some.inj h
      exact .free h_free
    · intro h
      cases h with
      | free => rfl
      | fixed h_split => exact absurd (by simp [h_split]) h_free.not_mem_colon
  · next h_word =>
    -- anything else has to be two parts around the first colon
    simp only [Option.bind_eq_bind, Option.bind_eq_some_iff, Prod.exists, splitColon_eq_some_iff,
      parsePart_eq_some_iff]
    constructor
    · rintro ⟨before, behind, ⟨h_split, h_first⟩, w, ⟨h_w, h_w_le⟩, h, ⟨h_h, h_h_le⟩, h_some⟩
      -- both parts are read; a zero among them names nothing
      split at h_some
      · exact absurd h_some (by simp)
      · next h_zero =>
        obtain rfl := Option.some.inj h_some
        obtain ⟨h_w_zero, h_h_zero⟩ := not_or.mp h_zero
        exact .fixed h_split h_first
          ⟨⟨_, trimmed_trim _, h_w⟩, Nat.one_le_iff_ne_zero.mpr h_w_zero, h_w_le⟩
          ⟨⟨_, trimmed_trim _, h_h⟩, Nat.one_le_iff_ne_zero.mpr h_h_zero, h_h_le⟩
    · -- and the other way round: what names a ratio is split at that colon and read
      intro h_names
      cases h_names with
      | free h_free => exact absurd (map_lowerAscii_eq_iff.mpr h_free) h_word
      | @fixed before behind w h h_split h_first h_w h_h =>
        obtain ⟨⟨core, h_core, h_numeral⟩, h_one, h_le⟩ := h_w
        obtain ⟨⟨core', h_core', h_numeral'⟩, h_one', h_le'⟩ := h_h
        -- blanks around the two parts are taken away before they are read
        refine ⟨before, behind, ⟨h_split, h_first⟩, w, ?_, h, ?_, ?_⟩
        · rw [h_core.trim_eq]
          exact ⟨h_numeral, h_le⟩
        · rw [h_core'.trim_eq]
          exact ⟨h_numeral', h_le'⟩
        · rw [if_neg (by omega)]

/-- **A text is read exactly as what it names.** -/
theorem parse_eq_ok_iff {s : String} : parse s = .ok ratio ↔ Names s.toList ratio := by
  have h_names : parseTrimmed (trim s.toList) = some ratio ↔ Names s.toList ratio := by
    rw [parseTrimmed_eq_some_iff]
    constructor
    · exact fun h => ⟨_, trimmed_trim _, h⟩
    · rintro ⟨core, h_core, h⟩
      rwa [h_core.trim_eq]
  rw [← h_names, parse]
  cases parseTrimmed (trim s.toList) with
  | none => simp
  | some r => simp

/-- **A text that names nothing** is a fault that carries it as it was given. -/
theorem parse_eq_error_iff {s : String} {fault : Fault} :
    parse s = .error fault ↔ fault = .aspectRatio s ∧ ∀ ratio, ¬ Names s.toList ratio := by
  constructor
  · intro h
    -- whatever is named would have been read
    have h_none : ∀ ratio, ¬ Names s.toList ratio := by
      intro ratio h_names
      rw [parse_eq_ok_iff.mpr h_names] at h
      exact absurd h (by simp)
    unfold parse at h
    split at h
    · exact absurd h (by simp)
    · exact ⟨(Except.error.inj h).symm, h_none⟩
  · rintro ⟨rfl, h_none⟩
    cases h_parse : parse s with
    | ok ratio => exact absurd (parse_eq_ok_iff.mp h_parse) (h_none ratio)
    | error fault =>
      unfold parse at h_parse
      split at h_parse
      · exact absurd h_parse (by simp)
      · exact h_parse.symm

/-! ### The written form -/

/-- Only proper ratios have names. -/
theorem Names.proper (h : Names cs ratio) : ratio.Proper := by
  obtain ⟨core, -, h_core⟩ := h
  cases h_core with
  | free => trivial
  | fixed _ _ h_w h_h => exact ⟨⟨h_w.one_le, h_w.le_limit⟩, h_h.one_le, h_h.le_limit⟩

/-- The digits of a number that may stand at the side of a colon name it. -/
theorem namesPart_digits (h_one : 1 ≤ n) (h_le : n ≤ partLimit) :
    NamesPart ((digits n).map Digit.toChar) n := by
  have h_blank : ∀ d : Digit, isBlank d.toChar = false := by decide
  exact ⟨⟨_, .self (List.forall_mem_map.mpr fun d _ => h_blank d), .plain (digits_digits n)⟩, h_one,
    h_le⟩

/-- **What is written for a ratio names it.** -/
theorem names_text (h : ratio.Proper) : Names ratio.text.toList ratio := by
  cases ratio with
  | free =>
    -- the word is written in small letters and without blanks
    have h_word : freeWord.map lowerAscii = freeWord := by decide
    have h_plain : freeWord.Forall fun c => isBlank c = false := by decide
    exact ⟨freeWord, .self (List.forall_iff_forall_mem.mp h_plain),
      .free (map_lowerAscii_eq_iff.mp h_word)⟩
  | fixed w h =>
    obtain ⟨⟨h_w, h_w_le⟩, h_h, h_h_le⟩ := h
    have h_text : (fixed w h).text.toList =
        (digits w).map Digit.toChar ++ ':' :: (digits h).map Digit.toChar := by
      simp [text, natText]
    -- digits are neither blanks nor colons
    have h_plain : ∀ d : Digit, isBlank d.toChar = false ∧ ':' ≠ d.toChar := by decide
    refine ⟨_, .self ?_, .fixed h_text ?_ (namesPart_digits h_w h_w_le)
      (namesPart_digits h_h h_h_le)⟩
    · rw [h_text]
      refine List.forall_mem_append.mpr ⟨?_, List.forall_mem_cons.mpr ⟨by decide, ?_⟩⟩
      · exact List.forall_mem_map.mpr fun d _ => (h_plain d).1
      · exact List.forall_mem_map.mpr fun d _ => (h_plain d).1
    · intro h_mem
      obtain ⟨d, -, h_eq⟩ := List.mem_map.mp h_mem
      exact (h_plain d).2 h_eq.symm

/-- **Texts and ratios.** The strict reader accepts exactly the texts that name a ratio and answers
with that ratio; any other text is a fault that carries the text unchanged. What is written for a
ratio is read as that ratio, so a ratio that was read is written in a form that is read as it
again. -/
theorem texts_of_ratios :
    (∀ s ratio, parse s = .ok ratio ↔ Names s.toList ratio) ∧
      (∀ s fault, parse s = .error fault ↔
        fault = .aspectRatio s ∧ ∀ ratio, ¬ Names s.toList ratio) ∧
      (∀ ratio : AspectRatio, ratio.Proper → parse ratio.text = .ok ratio) ∧
      ∀ s ratio, parse s = .ok ratio → parse ratio.text = .ok ratio := by
  refine ⟨fun s ratio => parse_eq_ok_iff, fun s fault => parse_eq_error_iff, ?_, ?_⟩
  · exact fun ratio h => parse_eq_ok_iff.mpr (names_text h)
  · exact fun s ratio h => parse_eq_ok_iff.mpr (names_text (parse_eq_ok_iff.mp h).proper)

/-- Blanks at every place where they may stand, a plus sign and a zero in front; and the largest
number that may stand at a side. -/
theorem texts_of_ratios_of_blanks :
    parse " +016 :\t9\n" = .ok (.fixed 16 9) ∧ parse (fixed 16 9).text = .ok (.fixed 16 9) ∧
      (fixed 4294967295 1).Proper ∧
      parse (fixed 4294967295 1).text = .ok (.fixed 4294967295 1) := by
  have h_read : parse " +016 :\t9\n" = .ok (.fixed 16 9) := by rfl
  have h_proper : (fixed 4294967295 1).Proper := by
    simp [Proper, partLimit]
  obtain ⟨-, -, h_write, h_again⟩ := texts_of_ratios
  exact ⟨h_read, h_again _ _ h_read, h_proper, h_write _ h_proper⟩

end AspectRatio

end ClipEdit
