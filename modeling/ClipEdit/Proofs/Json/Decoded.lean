import ClipEdit.Proofs.Json.Wire

/-!
# What was decoded

The editor accepts more texts than it writes. Fields stand in any order or are left out, a number has
any number of digits, and what nobody knows is skipped. But whatever the text was, a value that was
`Decoded` from it is made of decoded parts, so what holds of single fields holds of all of it:

* `isFinite_of_decoded` — a number is finite, since every step of the reader of numbers keeps a number
  finite or refuses it (`Number.isFinite_of_toFloat?`);
* `Record.le_of_getWith_countUpTo` — a count does not exceed its limit;
* `Decoded.of_mem` — the items of a list were decoded.

`Restored` says that a value survives being written, in either layout, and read again. With the texts
out of the way (`restored_iff`), this is a question about decoding what was encoded.
-/

namespace ClipEdit.Json

/-! ### Numbers -/

namespace Number

open Binary64

variable {x : Float}

theorem one_le_powerOfTen {k : Nat} (h : k ≤ 308) : 1 ≤ value (parts (powerOfTen k)) := by
  -- the power may be rounded, but not past a number of the format, and one is such a number
  obtain ⟨z, hz, h_value⟩ := exists_inFormat_natCast (m := 1) (by norm_num)
  rw [Nat.cast_one] at h_value
  rw [← h_value]
  refine (rounded_powerOfTen h).le_value hz ?_
  rw [h_value]
  exact one_le_pow₀ (by norm_num)

theorem isFinite_divideByPower (k : Nat) (hx : x.isFinite = true) :
    (divideByPower x k).isFinite = true := by
  -- no step of the division makes the number larger
  fun_induction divideByPower x k with
  | case1 x k hk => exact isFinite_div_of_one_le hx (isFinite_powerOfTen hk) (one_le_powerOfTen hk)
  | case2 x k => exact hx
  | case3 x k _ _ ih =>
    exact ih (isFinite_div_of_one_le hx (isFinite_powerOfTen le_rfl) (one_le_powerOfTen le_rfl))

theorem isFinite_ofNat {s : Nat} (hs : s ≤ significandLimit) : (Float.ofNat s).isFinite = true := by
  refine ((rounded_ofNat s).below (k := 64) (by norm_num) ?_).isFinite (by norm_num)
  rw [abs_of_nonneg (Nat.cast_nonneg s)]
  have h_le : s ≤ 2 ^ 64 := hs.trans (by decide)
  exact_mod_cast h_le

/-- **A number that is read is finite**: what would not be is out of range. -/
theorem isFinite_of_toFloat? {n : Number} (h : n.toFloat? = some x) : x.isFinite = true := by
  obtain ⟨-, -, -, -, -, -, -, h_limit, -⟩ := n.exists_significand
  obtain ⟨⟨s, scale⟩, h_pair⟩ : ∃ p, p = n.significand := ⟨_, rfl⟩
  unfold toFloat? at h
  rw [← h_pair] at h h_limit
  dsimp only at h h_limit
  have h_significand := isFinite_ofNat h_limit
  obtain ⟨y, h_magnitude, rfl⟩ := Option.map_eq_some_iff.mp h
  -- the sign comes last, so the magnitude is what has to be finite
  have h_finite : y.isFinite = true := by
    split at h_magnitude
    · exact Option.some.inj h_magnitude ▸ isFinite_divideByPower _ h_significand
    · split at h_magnitude
      · split at h_magnitude
        · next h_product => exact Option.some.inj h_magnitude ▸ h_product
        · exact absurd h_magnitude (by simp)
      · split at h_magnitude
        · exact Option.some.inj h_magnitude ▸ h_significand
        · exact absurd h_magnitude (by simp)
  split
  · exact isFinite_neg h_finite
  · exact h_finite

end Number

/-! ### Decoded values -/

section Decoded

variable {τ : Type} [Wire τ]

/-- **Some JSON value is decoded as this one.** -/
def Decoded (a : τ) : Prop := ∃ v, decode v = Except.ok a

/-- The value of a text was decoded. -/
theorem decoded_of_decodeText {s : String} {a : τ} (h : decodeText τ s = .ok a) : Decoded a := by
  unfold decodeText at h
  split at h
  · exact absurd h (by simp)
  · exact ⟨_, h⟩

theorem isFinite_of_decoded {x : Float} (h : Decoded x) : x.isFinite = true := by
  obtain ⟨v, h_decode⟩ := h
  cases v with
  | number n =>
    simp only [Wire.decode] at h_decode
    split at h_decode
    · next y h_read => exact Except.ok.inj h_decode ▸ Number.isFinite_of_toFloat? h_read
    · exact absurd h_decode (by simp)
  | _ => exact absurd h_decode (by simp [Wire.decode])

/-- The items of a list that was decoded were decoded. -/
theorem Decoded.of_mem {l : List τ} (h : Decoded l) : ∀ a ∈ l, Decoded a := by
  obtain ⟨v, h_decode⟩ := h
  cases v with
  | array items =>
    have h_items := mapM_eq_ok.mp h_decode
    clear h_decode
    induction h_items with
    | nil => simp
    | cons h_first _ ih => exact List.forall_mem_cons.mpr ⟨⟨_, h_first⟩, ih⟩
  | _ => exact absurd h_decode (by simp [Wire.decode])

theorem Record.decoded_of_get {r : Record} {name : String} {a : τ} (h : r.get name = .ok a) :
    Decoded a := by
  unfold Record.get Record.getWith at h
  split at h
  · exact ⟨_, h⟩
  · exact absurd h (by simp)

/-- A number that is a field of a record is finite. -/
theorem Record.isFinite_of_get {r : Record} {name : String} {x : Float} (h : r.get name = .ok x) :
    x.isFinite = true :=
  isFinite_of_decoded (decoded_of_get h)

/-- So is one that may be left out, if the fallback is. -/
theorem Record.isFinite_of_getD {r : Record} {name : String} {fallback x : Float}
    (h_fallback : fallback.isFinite = true) (h : r.getD name fallback = .ok x) :
    x.isFinite = true := by
  unfold Record.getD at h
  split at h
  · exact isFinite_of_decoded ⟨_, h⟩
  · exact Except.ok.inj h ▸ h_fallback

/-- A count that was decoded does not exceed its limit. -/
theorem Record.le_of_getWith_countUpTo {r : Record} {name : String} {limit k : Nat}
    (h : r.getWith (countUpTo limit) name = .ok k) : k ≤ limit := by
  unfold Record.getWith countUpTo at h
  grind

end Decoded

/-! ### Values that survive -/

section Restored

variable {τ : Type} [Wire τ]

/-- **A value that its texts give back**, in either layout. -/
structure Restored (v : τ) : Prop where
  compact : decodeText τ (compact (encode v)) = .ok v
  pretty : decodeText τ (pretty (encode v)) = .ok v

/-- Both layouts of a well-formed value are parsed as that value, so they make no difference. -/
theorem restored_iff {v : τ} (h : (encode v).WellFormed) : Restored v ↔ Reads v v := by
  have h_compact : decodeText τ (compact (encode v)) = decode (encode v) := by
    rw [decodeText, parse?_compact h]
  have h_pretty : decodeText τ (pretty (encode v)) = decode (encode v) := by
    rw [decodeText, parse?_pretty h]
  constructor
  · intro h_restored
    exact h_compact.symm.trans h_restored.compact
  · intro h_reads
    exact ⟨h_compact.trans h_reads, h_pretty.trans h_reads⟩

/-- A list is read as itself exactly if its items are. -/
theorem reads_self_list {l : List τ} : Reads l l ↔ ∀ v ∈ l, Reads v v := by
  rw [reads_list, List.forall₂_same]

end Restored

end ClipEdit.Json
