import ClipEdit.Proofs.Scalar.Gauge

/-!
# Signs of binary64 results

A sum that is begun at zero should be the sum that is begun at its first term, to the last bit. At
binary64 numbers this has one exception: `0 + x` is `x` unless `x` is the negative zero
(`zero_add_of_isPlus`). So the sign of the first term matters even where its value does not.

`IsPlus` says that a number does not carry the negative sign. It says nothing about the size, so it
is not lost where a result is too small or too large for the format:

* `IsPlus.unpack_pack` — storing a number keeps its sign, also where it becomes zero or an infinity;
* `isPlus_sub_of_lt` — a larger number less a smaller one carries the positive sign;
* `IsPlus.stored_div` — so does a quotient of two numbers that do.
-/

namespace ClipEdit.Binary64

open Float.Model Float.Model.UnpackedFloat

/-- **The sign is not the negative one.** A non-number has no sign. -/
def IsPlus : UnpackedFloat → Prop
  | .notANumber => True
  | .infinity s => s = .positive
  | .zero s => s = .positive
  | .finite s _ _ _ => s = .positive

variable {u v : UnpackedFloat}

/-- A number above zero is not negative. -/
theorem isPlus_of_value_pos (h : 0 < value u) : IsPlus u := by
  have h_limit := limit_pos
  cases u with
  | notANumber => trivial
  | infinity s =>
    cases s
    · -- a negative number has a negative value
      change 0 < -limit at h
      linarith
    · rfl
  | zero s => exact absurd h (lt_irrefl 0)
  | finite s m e hm =>
    cases s
    · have h_size := size_pos hm e
      change 0 < -size m e at h
      linarith
    · rfl

/-! ### Storing -/

/-- Whatever the other bits are, the sign that is read is the one that was stored. -/
theorem isPlus_unpack_packComponents (x : BitVec 11) (m : BitVec 52) :
    IsPlus (UnpackedFloat.unpack Format.binary64 (packComponents Format.binary64 .positive x m)) := by
  simp only [UnpackedFloat.unpack, ofBitVec_unpackSign]
  -- infinities and non-numbers, zeros, and all the others
  split
  · split <;> trivial
  · split
    · split <;> rfl
    · rfl

/-- **Storing a number keeps its sign**, even if the number does not fit. -/
theorem IsPlus.unpack_pack (h : IsPlus u) : IsPlus (Float.Model.pack u).unpack := by
  change IsPlus (UnpackedFloat.unpack Format.binary64 (UnpackedFloat.pack Format.binary64 u))
  cases u with
  | notANumber => exact isPlus_unpack_packComponents _ _
  | infinity s =>
    obtain rfl : s = .positive := h
    exact isPlus_unpack_packComponents _ _
  | zero s =>
    obtain rfl : s = .positive := h
    exact isPlus_unpack_packComponents _ _
  | finite s m e hm =>
    obtain rfl : s = .positive := h
    -- whichever form it is packed in, the sign bit goes with it
    simp only [UnpackedFloat.pack]
    split
    · exact isPlus_unpack_packComponents _ _
    · split <;> exact isPlus_unpack_packComponents _ _

/-! ### Operations -/

/-- Rounding takes over the sign that it is given. -/
theorem isPlus_roundWithAccuracy (m : Nat) (e : Int) (accuracy : Accuracy) :
    IsPlus (roundWithAccuracy Format.binary64 .positive m e accuracy) := by
  unfold roundWithAccuracy
  dsimp only
  split <;> rfl

/-- A larger number less a smaller one is not negative. -/
theorem isPlus_sub (hu : InFormat u) (hv : InFormat v) (h : value v < value u) :
    IsPlus (UnpackedFloat.sub Format.binary64 u v) := by
  have h_least := (abs_le.mp (abs_value_le hv)).1
  have h_greatest := (abs_le.mp (abs_value_le hu)).2
  by_cases h_infinite : (∃ s, u = .infinity s) ∨ ∃ s, v = .infinity s
  · -- nothing lies below the negative infinity or above the positive one
    rcases h_infinite with ⟨_ | _, rfl⟩ | ⟨_ | _, rfl⟩
    · change value v < -limit at h
      linarith
    · cases v with
      | infinity t => cases t <;> trivial
      | _ => trivial
    · cases u with
      | infinity s => cases s <;> trivial
      | _ => trivial
    · change limit < value u at h
      linarith
  · push Not at h_infinite
    cases u with
    | notANumber => trivial
    | infinity s => exact absurd rfl (h_infinite.1 s)
    | zero s =>
      cases v with
      | notANumber => trivial
      | infinity t => exact absurd rfl (h_infinite.2 t)
      | zero t => exact absurd h (lt_irrefl 0)
      | finite t n f hn =>
        -- what is below zero is turned round
        have h_pos : 0 < value (UnpackedFloat.neg (.finite t n f hn)) := by
          rw [value_neg]
          exact neg_pos.mpr h
        exact isPlus_of_value_pos h_pos
    | finite s m e hm =>
      cases v with
      | notANumber => trivial
      | infinity t => exact absurd rfl (h_infinite.2 t)
      | zero t => exact isPlus_of_value_pos h
      | finite t n f hn =>
        -- the difference is formed exactly on one grid, and only then rounded
        obtain ⟨k, x, h_value, h_sub⟩ := exists_sub_eq_normalize s t hm hn e f
        have h_mul : 0 < (k : ℚ) * (2 : ℚ) ^ x := h_value ▸ sub_pos.mpr h
        have h_pos : 0 < k := by
          have h_cast : (0 : ℚ) < k := pos_of_mul_pos_left h_mul (by positivity)
          exact_mod_cast h_cast
        rw [h_sub, UnpackedFloat.normalize, compare_gt_iff_gt.mpr h_pos]
        exact isPlus_roundWithAccuracy _ _ _

/-- A quotient of two numbers that are not negative is not negative either. -/
theorem IsPlus.div (hu : IsPlus u) (hv : IsPlus v) :
    IsPlus (UnpackedFloat.div Format.binary64 u v) := by
  cases u with
  | notANumber => trivial
  | infinity s =>
    obtain rfl : s = .positive := hu
    cases v with
    -- infinity divided by itself, and so zero by zero further down, is no number
    | notANumber | infinity => trivial
    | zero t | finite t n f hn =>
      obtain rfl : t = .positive := hv
      rfl
  | zero s =>
    obtain rfl : s = .positive := hu
    cases v with
    | notANumber | zero => trivial
    | infinity t | finite t n f hn =>
      obtain rfl : t = .positive := hv
      rfl
  | finite s m e hm =>
    obtain rfl : s = .positive := hu
    cases v with
    | notANumber => trivial
    | infinity t | zero t =>
      obtain rfl : t = .positive := hv
      rfl
    | finite t n f hn =>
      obtain rfl : t = .positive := hv
      exact isPlus_roundWithAccuracy _ _ _

/-- Zero and a number that is not negative make that number. -/
theorem zero_add_unpacked (hu : IsPlus u) :
    UnpackedFloat.add Format.binary64 (.zero .positive) u = u := by
  cases u with
  | zero s =>
    obtain rfl : s = .positive := hu
    rfl
  | _ => rfl

/-! ### Stored numbers -/

section Stored

variable {x y : Float}

theorem isPlus_sub_of_lt (h : y < x) : IsPlus (parts (x - y)) :=
  (isPlus_sub (inFormat_parts x) (inFormat_parts y) (lt_iff_value_lt.mp h).2.2).unpack_pack

theorem IsPlus.stored_div (hx : IsPlus (parts x)) (hy : IsPlus (parts y)) :
    IsPlus (parts (x / y)) :=
  (hx.div hy).unpack_pack

theorem isPlus_of_pos (h : 0 < x) : IsPlus (parts x) := by
  have h_value := (lt_iff_value_lt.mp h).2.2
  exact isPlus_of_value_pos (lt_of_eq_of_lt (value_zero .positive).symm h_value)

/-- **Adding to zero changes nothing**, to the last bit, unless it is the negative zero that is
added. -/
theorem zero_add_of_isPlus (hx : IsPlus (parts x)) : 0 + x = x := by
  have h_add : (0 : Float) + x = Float.ofModel (Float.Model.pack
      (UnpackedFloat.add Format.binary64 (.zero .positive) (parts x))) := rfl
  have h_pack : Float.ofModel (Float.Model.pack (parts x)) = x := Float.ofBits_toBits x
  rw [h_add, zero_add_unpacked hx, h_pack]

end Stored

end ClipEdit.Binary64
