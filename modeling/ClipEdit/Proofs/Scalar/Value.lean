import ClipEdit.Proofs.Scalar.Grid

/-!
# The value of a binary64 number

A binary64 number that is not a non-number has a rational value (`value`). The infinities are read
as `± limit`, where `limit` is `2^1024`, the first power of two that is out of reach: a quantity
that is too large for the format is cut off there, and comparing numbers is comparing values.

* `compare_eq` — the order of unpacked numbers is the order of their values;
* `unpack_pack` — packing cuts a number of the grid off at the infinities and changes nothing else;
* `sub_faithful` — no number lies strictly between the exact difference of two finite numbers and
  the difference that is computed;
* `abs_sub_comm` — the distance of two numbers does not depend on their order, to the last bit.
-/

namespace ClipEdit.Binary64

open Float.Model Float.Model.UnpackedFloat

/-- `2^1024`, the smallest size that is out of reach. -/
def limit : ℚ := size (2 ^ 52) 972

/-- The rational value of a number. A non-number is given the value `0`. -/
def value : UnpackedFloat → ℚ
  | .notANumber => 0
  | .infinity .positive => limit
  | .infinity .negative => -limit
  | .zero _ => 0
  | .finite .positive m e _ => size m e
  | .finite .negative m e _ => -size m e

/-- A number on the grid, with any exponent. -/
def OnGrid : UnpackedFloat → Prop
  | .finite _ m e _ => GridPoint m e
  | _ => True

/-- A number of the format: on the grid, and not past its largest exponent. -/
def InFormat : UnpackedFloat → Prop
  | .finite _ m e _ => GridPoint m e ∧ e ≤ 971
  | _ => True

/-- What is past the largest exponent becomes an infinity. -/
def cutOff : UnpackedFloat → UnpackedFloat
  | .finite s m e h => if e ≤ 971 then .finite s m e h else .infinity s
  | u => u

theorem InFormat.onGrid {u : UnpackedFloat} (h : InFormat u) : OnGrid u := by
  cases u with
  | finite s m e hm => exact h.1
  | _ => trivial

/-! ### Values -/

@[simp] theorem value_zero (s : Sign) : value (.zero s) = 0 := rfl

theorem onGrid_signed {s : Sign} {m : Nat} {e : Int} (h : GridPoint m e) :
    OnGrid (signed s m e) := by
  unfold signed
  split
  · trivial
  · exact h

theorem limit_pos : 0 < limit := size_pos (by norm_num) 972

theorem size_lt_limit {m : Nat} {e : Int} (h : GridPoint m e) (he : e ≤ 971) : size m e < limit :=
  size_lt_of_exponent_lt h.lt_two_pow le_rfl (by omega)

theorem limit_le_size {m : Nat} {e : Int} (h : GridPoint m e) (he : 971 < e) :
    limit ≤ size m e := by
  -- a grid point this far up is full, and `limit` is the least full one at its exponent
  have h_full : 2 ^ 52 ≤ m := h.full_of_lt (e := 971) (by omega) he
  rcases eq_or_lt_of_le (show (972 : Int) ≤ e by omega) with h_eq | h_lt
  · rw [limit, ← h_eq]
    exact size_le_size_iff.mpr h_full
  · exact (size_lt_of_exponent_lt (by norm_num) h_full h_lt).le

/-- No number is past the infinities. -/
theorem abs_value_le {u : UnpackedFloat} (h : InFormat u) : |value u| ≤ limit := by
  have h_limit := limit_pos
  rw [abs_le]
  cases u with
  | notANumber => exact ⟨by simp only [value]; linarith, by simp only [value]; linarith⟩
  | infinity s => cases s <;> simp only [value] <;> constructor <;> linarith
  | zero s => exact ⟨by simp only [value]; linarith, by simp only [value]; linarith⟩
  | finite s m e hm =>
    have h_lt := size_lt_limit h.1 h.2
    have h_pos := size_pos hm e
    cases s <;> simp only [value] <;> constructor <;> linarith

/-- The finite numbers are those before the infinities. -/
theorem isFinite_iff {u : UnpackedFloat} (h : InFormat u) :
    u.isFinite = true ↔ u ≠ .notANumber ∧ |value u| < limit := by
  have h_limit := limit_pos
  cases u with
  | notANumber => simp [UnpackedFloat.isFinite]
  | infinity s => cases s <;> simp [UnpackedFloat.isFinite, value, abs_of_pos h_limit]
  | zero s => simpa [UnpackedFloat.isFinite] using h_limit
  | finite s m e hm =>
    have h_lt := size_lt_limit h.1 h.2
    have h_pos := size_pos hm e
    cases s <;> simpa [UnpackedFloat.isFinite, value, abs_of_pos h_pos] using h_lt

/-! ### Order -/

private theorem some_lt {a b : ℚ} (h : a < b) : some Ordering.lt = some (compare a b) := by
  rw [compare_lt_iff_lt.mpr h]

private theorem some_gt {a b : ℚ} (h : b < a) : some Ordering.gt = some (compare a b) := by
  rw [compare_gt_iff_gt.mpr h]

private theorem some_eq (a : ℚ) : some Ordering.eq = some (compare a a) := by
  rw [compare_eq_iff_eq.mpr rfl]

/-- Two numbers below zero compare the other way round. -/
private theorem compare_neg (a b : ℚ) : (compare a b).swap = compare (-a) (-b) := by
  rcases lt_trichotomy a b with h | h | h
  · rw [compare_lt_iff_lt.mpr h, compare_gt_iff_gt.mpr (neg_lt_neg h)]
    rfl
  · rw [h, compare_eq_iff_eq.mpr rfl, compare_eq_iff_eq.mpr rfl]
    rfl
  · rw [compare_gt_iff_gt.mpr h, compare_lt_iff_lt.mpr (neg_lt_neg h)]
    rfl

/-- **The order of numbers is the order of their values.** -/
theorem compare_eq {u v : UnpackedFloat} (hu : InFormat u) (hv : InFormat v)
    (hu' : u ≠ .notANumber) (hv' : v ≠ .notANumber) :
    u.compare v = some (compare (value u) (value v)) := by
  have h_limit := limit_pos
  -- numbers of different kinds or signs are told apart by `0` and `limit`; only two finite numbers
  -- of one sign have their exponents and mantissas compared
  cases u with
  | notANumber => exact absurd rfl hu'
  | infinity s =>
    cases v with
    | notANumber => exact absurd rfl hv'
    | infinity t =>
      cases s <;> cases t
      · exact some_eq _
      · exact some_lt (show -limit < limit by linarith)
      · exact some_gt (show -limit < limit by linarith)
      · exact some_eq _
    | zero t =>
      cases s
      · exact some_lt (show -limit < 0 by linarith)
      · exact some_gt h_limit
    | finite t n f hn =>
      have h_pos := size_pos hn f
      have h_lt := size_lt_limit hv.1 hv.2
      cases s <;> cases t
      · exact some_lt (show -limit < -size n f by linarith)
      · exact some_lt (show -limit < size n f by linarith)
      · exact some_gt (show -size n f < limit by linarith)
      · exact some_gt h_lt
  | zero s =>
    cases v with
    | notANumber => exact absurd rfl hv'
    | infinity t =>
      cases t
      · exact some_gt (show -limit < 0 by linarith)
      · exact some_lt h_limit
    | zero t => exact some_eq 0
    | finite t n f hn =>
      have h_pos := size_pos hn f
      cases t
      · exact some_gt (show -size n f < 0 by linarith)
      · exact some_lt h_pos
  | finite s m e hm =>
    have h_pos := size_pos hm e
    have h_lt := size_lt_limit hu.1 hu.2
    cases v with
    | notANumber => exact absurd rfl hv'
    | infinity t =>
      cases s <;> cases t
      · exact some_gt (show -limit < -size m e by linarith)
      · exact some_lt (show -size m e < limit by linarith)
      · exact some_gt (show -limit < size m e by linarith)
      · exact some_lt h_lt
    | zero t =>
      cases s
      · exact some_lt (show -size m e < 0 by linarith)
      · exact some_gt h_pos
    | finite t n f hn =>
      have h_pos' := size_pos hn f
      have h_grid := GridPoint.compare_eq hu.1 hv.1
      cases s <;> cases t
      · -- below zero, the comparison of sizes is turned round
        change some ((compare e f).then (compare m n)).swap = some (compare (-size m e) (-size n f))
        rw [h_grid, compare_neg]
      · exact some_lt (show -size m e < size n f by linarith)
      · exact some_gt (show -size n f < size m e by linarith)
      · exact congrArg some h_grid

/-! ### Packing and unpacking -/

theorem ofBitVec_unpackSign (s : Sign) (x : BitVec 11) (m : BitVec 52) :
    Sign.ofBitVec (unpackSign (packComponents Format.binary64 s x m)) = s := by
  have h_bit : unpackSign (packComponents Format.binary64 s x m) = s.toBitVec := by
    apply BitVec.eq_of_getLsbD_eq
    intro i hi
    obtain rfl : i = 0 := by omega
    simp only [unpackSign, packComponents, BitVec.getLsbD_cast, BitVec.getLsbD_extractLsb]
    rw [BitVec.getLsbD_append, BitVec.getLsbD_append]
    cases s <;> rfl
  rw [h_bit]
  cases s <;> rfl

/-- The implicit leading bit stands above the 52 bits that are stored. -/
theorem toNat_leading_append (m : BitVec 52) : (1#1 ++ m).toNat = 2 ^ 52 + m.toNat := by
  rw [BitVec.toNat_append, ← Nat.shiftLeft_add_eq_or_of_lt m.isLt]
  rfl

/-- What is read from bits is a number of the format. -/
theorem inFormat_unpack (b : BitVec Format.binary64.numBits) :
    InFormat (UnpackedFloat.unpack Format.binary64 b) := by
  have h_bias : ((Format.binary64.exponentBias : Nat) : Int) = 1023 := rfl
  have h_stored : ((Format.binary64.mantissaBitsWithoutImplicit : Nat) : Int) = 52 := rfl
  have h_mantissa : (unpackMantissa b).toNat < 2 ^ 52 := (unpackMantissa b).isLt
  have h_exponent : (unpackExponent b).toNat < 2 ^ 11 := (unpackExponent b).isLt
  rw [UnpackedFloat.unpack]
  split
  · -- the largest stored exponent: an infinity or a non-number
    split <;> trivial
  · next h_inf =>
    have h_inf' : (unpackExponent b).toNat ≠ 2047 := fun h => h_inf (BitVec.eq_of_toNat_eq h)
    split
    · next h_zero =>
      have h_zero' : (unpackExponent b).toNat = 0 := congrArg BitVec.toNat h_zero
      split
      · trivial
      · -- no implicit bit: the number has the least exponent and may have fewer bits
        refine ⟨⟨by omega, ?_, Or.inr ?_⟩, ?_⟩ <;> rw [h_zero', h_bias, h_stored] <;> norm_num
    · next h_zero =>
      have h_zero' : (unpackExponent b).toNat ≠ 0 := fun h => h_zero (BitVec.eq_of_toNat_eq h)
      -- the implicit bit makes 53 bits of the 52 that are stored
      have h_append := toNat_leading_append (unpackMantissa b)
      refine ⟨⟨by omega, ?_, Or.inl (by omega)⟩, ?_⟩ <;> rw [h_bias, h_stored] <;> omega

/-- Reading back a number with 53 bits, whose first one is not stored. -/
theorem unpack_full (s : Sign) {m : Nat} {e : Int} (hm : 0 < m) (h_full : 2 ^ 52 ≤ m)
    (h_lt : m < 2 ^ 53) (h_least : -1074 ≤ e) (h_top : e ≤ 971) :
    UnpackedFloat.unpack Format.binary64 (packComponents Format.binary64 s
      (BitVec.ofNat 11 (e + 1075).toNat) (BitVec.ofNat 52 m)) = .finite s m e hm := by
  have h_exponent : (BitVec.ofNat 11 (e + 1075).toNat).toNat = (e + 1075).toNat := by
    rw [BitVec.toNat_ofNat]
    omega
  -- the stored exponent is neither of the two that have a meaning of their own
  have h_inf : BitVec.ofNat 11 (e + 1075).toNat ≠ -1#11 := by
    intro h
    have h_nat := congrArg BitVec.toNat h
    rw [h_exponent] at h_nat
    change _ = 2047 at h_nat
    omega
  have h_zero : BitVec.ofNat 11 (e + 1075).toNat ≠ 0#11 := by
    intro h
    have h_nat := congrArg BitVec.toNat h
    rw [h_exponent] at h_nat
    change _ = 0 at h_nat
    omega
  simp only [UnpackedFloat.unpack, unpackExponent_packComponents, unpackMantissa_packComponents,
    ofBitVec_unpackSign, if_neg h_inf, if_neg h_zero, h_exponent]
  congr 1
  · rw [toNat_leading_append, BitVec.toNat_ofNat]
    omega
  · change ((e + 1075).toNat : Int) - ((1023 : Nat) + (52 : Nat)) = e
    omega

/-- Reading back a number with fewer bits, which has the least exponent. -/
theorem unpack_least (s : Sign) {m : Nat} (hm : 0 < m) (h_lt : m < 2 ^ 52) :
    UnpackedFloat.unpack Format.binary64 (packComponents Format.binary64 s 0#11
      (BitVec.ofNat 52 m)) = .finite s m (-1074) hm := by
  have h_mantissa : (BitVec.ofNat 52 m).toNat = m := by
    rw [BitVec.toNat_ofNat]
    omega
  -- a mantissa of zero would be read as the number zero
  have h_zero : BitVec.ofNat 52 m ≠ 0#52 := by
    intro h
    have h_nat := congrArg BitVec.toNat h
    rw [h_mantissa] at h_nat
    change _ = 0 at h_nat
    omega
  simp only [UnpackedFloat.unpack, unpackExponent_packComponents, unpackMantissa_packComponents,
    ofBitVec_unpackSign, dif_neg h_zero, h_mantissa]
  rfl

/-- **Packing** cuts a number of the grid off at the infinities and changes nothing else. -/
theorem unpack_pack {u : UnpackedFloat} (h : OnGrid u) :
    (Float.Model.pack u).unpack = cutOff u := by
  change UnpackedFloat.unpack Format.binary64 (UnpackedFloat.pack Format.binary64 u) = _
  cases u with
  | notANumber => rfl
  | infinity s => cases s <;> rfl
  | zero s => cases s <;> rfl
  | finite s m e hm =>
    have h_lt : m < 2 ^ 53 := GridPoint.lt_two_pow h
    have h_least : -1074 ≤ e := GridPoint.le_exponent h
    have h_biased : (e + (Format.binary64.exponentBias : Nat)
        + (Format.binary64.mantissaBitsWithoutImplicit : Nat)).toNat = (e + 1075).toNat := by
      change (e + (1023 : Nat) + (52 : Nat)).toNat = _
      omega
    simp only [UnpackedFloat.pack, h_biased, cutOff]
    by_cases h_top : e ≤ 971
    · rw [if_neg (by omega), if_pos h_top]
      by_cases h_full : 2 ^ 52 ≤ m
      · have h_log : m.log2 = 52 := (Nat.log2_eq_iff (by omega)).mpr ⟨h_full, h_lt⟩
        rw [if_pos (by rw [h_log]; rfl)]
        exact unpack_full s hm h_full h_lt h_least h_top
      · -- a grid point that is not full has the least exponent
        have h_log : m.log2 < 52 := (Nat.log2_lt (by omega)).mpr (by omega)
        obtain rfl : e = -1074 := (GridPoint.full_or_least h).resolve_left h_full
        rw [if_neg (by change ¬ m.log2 + 1 = 53; omega)]
        exact unpack_least s hm (by omega)
    · -- the exponent does not fit any more, and what is stored is an infinity
      rw [if_pos (by omega), if_neg h_top]
      cases s <;> rfl

/-! ### Rounded results -/

theorem InFormat.cutOff_eq {u : UnpackedFloat} (h : InFormat u) : cutOff u = u := by
  cases u with
  | finite s m e hm => simp only [cutOff, if_pos h.2]
  | _ => rfl

theorem cutOff_ne_notANumber {u : UnpackedFloat} (h : u ≠ .notANumber) :
    cutOff u ≠ .notANumber := by
  cases u with
  | finite s m e hm =>
    simp only [cutOff]
    split <;> simp
  | _ => exact h

/-- A result is **faithful** to an exact quantity when no number of the format lies strictly between
the two, and when it is off by a small part of the quantity only, unless the quantity is too large or
too small for that. -/
structure Faithful (q : ℚ) (u : UnpackedFloat) : Prop where
  isNumber : u ≠ .notANumber
  onGrid : OnGrid u
  value_le : ∀ {z}, InFormat z → q ≤ value z → value (cutOff u) ≤ value z
  le_value : ∀ {z}, InFormat z → value z ≤ q → value z ≤ value (cutOff u)
  near : (cutOff u).isFinite = true → leastFull ≤ |q| → |value (cutOff u) - q| ≤ |q| / 2 ^ 53

/-- A number of the format is faithful to itself. -/
theorem Faithful.self {u : UnpackedFloat} (h : InFormat u) (h' : u ≠ .notANumber) :
    Faithful (value u) u where
  isNumber := h'
  onGrid := h.onGrid
  value_le := fun _ hz => by rwa [h.cutOff_eq]
  le_value := fun _ hz => by rwa [h.cutOff_eq]
  near := by
    intro _ _
    rw [h.cutOff_eq, sub_self, abs_zero]
    positivity

/-! Changing the sign of a number changes the sign of its value. -/

section Neg

variable {u : UnpackedFloat}

theorem value_neg (u : UnpackedFloat) : value u.neg = -value u := by
  cases u with
  | notANumber => exact neg_zero.symm
  | infinity s =>
    cases s
    · exact (neg_neg limit).symm
    · rfl
  | zero s => exact neg_zero.symm
  | finite s m e hm =>
    cases s
    · exact (neg_neg (size m e)).symm
    · rfl

theorem InFormat.neg (h : InFormat u) : InFormat u.neg := by
  cases u with
  | finite s m e hm => exact h
  | _ => trivial

theorem cutOff_neg (u : UnpackedFloat) : cutOff u.neg = (cutOff u).neg := by
  cases u with
  | finite s m e hm =>
    simp only [UnpackedFloat.neg, cutOff]
    split <;> rfl
  | _ => rfl

theorem cutOff_abs (u : UnpackedFloat) : (cutOff u).abs = cutOff u.abs := by
  cases u with
  | finite s m e hm =>
    by_cases h_top : e ≤ 971 <;> simp [UnpackedFloat.abs, cutOff, h_top]
  | _ => rfl

theorem neg_neg_unpacked (u : UnpackedFloat) : u.neg.neg = u := by
  have h_sign : ∀ s : Sign, - -s = s := by
    intro s
    cases s <;> rfl
  cases u <;> simp [UnpackedFloat.neg, h_sign]

theorem isFinite_neg_unpacked (u : UnpackedFloat) : u.neg.isFinite = u.isFinite := by
  cases u <;> rfl

theorem neg_signed (s : Sign) (m : Nat) (e : Int) : (signed s m e).neg = signed (-s) m e := by
  unfold signed
  split <;> rfl

/-- Rounding does not see the sign. -/
theorem Faithful.neg {q : ℚ} (h : Faithful q u) : Faithful (-q) u.neg where
  isNumber := by
    intro h_nan
    have h_u : u = .notANumber := by rw [← neg_neg_unpacked u, h_nan]; rfl
    exact h.isNumber h_u
  onGrid := by
    have h_grid := h.onGrid
    cases u with
    | finite s m e hm => exact h_grid
    | _ => trivial
  value_le := by
    -- numbers above the one are the negatives of numbers below the other
    intro z hz hq
    have h_le := h.le_value hz.neg (by rw [value_neg]; linarith)
    rw [value_neg] at h_le
    rw [cutOff_neg, value_neg]
    linarith
  le_value := by
    intro z hz hq
    have h_le := h.value_le hz.neg (by rw [value_neg]; linarith)
    rw [value_neg] at h_le
    rw [cutOff_neg, value_neg]
    linarith
  near := by
    have h_sub : -value (cutOff u) - -q = -(value (cutOff u) - q) := by ring
    rw [cutOff_neg, isFinite_neg_unpacked, value_neg, h_sub, abs_neg, abs_neg]
    exact h.near

end Neg

/-- What a grid point is worth once it is packed. -/
theorem value_cutOff_signed {m : Nat} {e : Int} (h : GridPoint m e) :
    value (cutOff (signed .positive m e)) = min (size m e) limit := by
  unfold signed
  split
  · next h0 =>
    subst h0
    simp [cutOff, size, limit_pos.le]
  · simp only [cutOff]
    split
    · next h_top => exact (min_eq_left (size_lt_limit h h_top).le).symm
    · next h_top => exact (min_eq_right (limit_le_size h (by omega))).symm

/-- What is finite once it is packed has not been cut off. -/
theorem cutOff_signed_of_isFinite {s : Sign} {m : Nat} {e : Int}
    (h : (cutOff (signed s m e)).isFinite = true) :
    cutOff (signed s m e) = signed s m e := by
  unfold signed at *
  split
  · rfl
  · next h_pos =>
    rw [dif_neg h_pos] at h
    simp only [cutOff] at h ⊢
    split
    · rfl
    · next h_top =>
      rw [if_neg h_top] at h
      exact absurd h (by simp [UnpackedFloat.isFinite])

theorem value_signed (m : Nat) (e : Int) : value (signed .positive m e) = size m e := by
  unfold signed
  split
  · next h0 =>
    rw [h0]
    simp [size]
  · rfl

/-- A rounded size is faithful, with the sign `+`. -/
theorem RoundsTo.faithful {q : ℚ} {m : Nat} {e : Int} (h : RoundsTo q m e) (hq : 0 < q) :
    Faithful q (signed .positive m e) where
  isNumber := by
    unfold signed
    split <;> simp
  onGrid := onGrid_signed h.gridPoint
  value_le := by
    intro z hz h_le
    have h_pos : 0 < value z := lt_of_lt_of_le hq h_le
    rw [value_cutOff_signed h.gridPoint]
    cases z with
    | notANumber => exact absurd h_pos (lt_irrefl _)
    | infinity s =>
      cases s
      · exact absurd h_pos (by simpa [value] using limit_pos.le)
      · exact min_le_right _ _
    | zero s => exact absurd h_pos (lt_irrefl _)
    | finite s n f hn =>
      cases s
      · exact absurd h_pos (by simpa [value] using size_nonneg n f)
      · -- rounding does not pass a grid point on its way up
        exact (min_le_left _ _).trans (h.size_le hz.1 h_le)
  le_value := by
    intro z hz h_le
    have h_nonneg : 0 ≤ min (size m e) limit := le_min (size_nonneg m e) limit_pos.le
    rw [value_cutOff_signed h.gridPoint]
    cases z with
    | notANumber => exact h_nonneg
    | infinity s =>
      cases s
      · have h_limit := limit_pos
        simp only [value]
        linarith
      · -- the infinity is worth a grid point, so rounding does not cross it either
        have h_grid : GridPoint (2 ^ 52) 972 := ⟨by norm_num, by norm_num, Or.inl le_rfl⟩
        exact le_min (h.le_size h_grid h_le) le_rfl
    | zero s => exact h_nonneg
    | finite s n f hn =>
      cases s
      · have h_size := size_nonneg n f
        simp only [value]
        linarith
      · exact le_min (h.le_size hz.1 h_le) (size_lt_limit hz.1 hz.2).le
  near := by
    intro h_fin h_full
    rw [abs_of_pos hq] at h_full ⊢
    rw [cutOff_signed_of_isFinite h_fin, value_signed]
    exact h.near h_full

/-- **Normalising is faithful**: the number that is made of a signed mantissa and an exponent. -/
theorem faithful_normalize (m : Int) (e : Int) (s : Sign) :
    Faithful ((m : ℚ) * (2 : ℚ) ^ e) (UnpackedFloat.normalize Format.binary64 m e s) := by
  -- the sign is taken off, the size is rounded, and the sign is put back
  rcases lt_trichotomy m 0 with h | h | h
  · obtain ⟨n, rfl⟩ : ∃ n : Nat, m = -n := ⟨(-m).toNat, by omega⟩
    have hn : 0 < n := by omega
    obtain ⟨a, f, h_rounds, h_eq⟩ := exists_round hn e
    have h_round : UnpackedFloat.normalize Format.binary64 (-n) e s
        = (signed .positive a f).neg := by
      rw [UnpackedFloat.normalize, compare_lt_iff_lt.mpr h, neg_signed, Int.neg_neg]
      exact h_eq .negative
    have h_value : ((-(n : Int) : Int) : ℚ) * (2 : ℚ) ^ e = -size n e := by
      unfold size
      push_cast
      ring
    rw [h_round, h_value]
    exact (h_rounds.faithful (size_pos hn e)).neg
  · subst h
    have h_zero : UnpackedFloat.normalize Format.binary64 0 e s = .zero s := rfl
    simpa [h_zero] using Faithful.self (u := .zero s) trivial (by simp)
  · obtain ⟨n, rfl⟩ : ∃ n : Nat, m = n := ⟨m.toNat, by omega⟩
    have hn : 0 < n := by omega
    obtain ⟨a, f, h_rounds, h_eq⟩ := exists_round hn e
    have h_round : UnpackedFloat.normalize Format.binary64 n e s = signed .positive a f := by
      rw [UnpackedFloat.normalize, compare_gt_iff_gt.mpr h]
      exact h_eq .positive
    rw [h_round]
    exact h_rounds.faithful (size_pos hn e)

/-! ### Differences -/

section Sub

variable {u v : UnpackedFloat}

/-- A finite number is a zero or has a mantissa. -/
theorem zero_or_finite (h : u.isFinite = true) :
    (∃ s, u = .zero s) ∨ ∃ s m e hm, u = .finite s m e hm := by
  cases u with
  | notANumber => exact absurd h (by simp [UnpackedFloat.isFinite])
  | infinity s => exact absurd h (by simp [UnpackedFloat.isFinite])
  | zero s => exact Or.inl ⟨s, rfl⟩
  | finite s m e hm => exact Or.inr ⟨s, m, e, hm, rfl⟩

theorem value_finite (s : Sign) (m : Nat) (e : Int) (hm : 0 < m) :
    value (.finite s m e hm) = ((s.apply m : Int) : ℚ) * (2 : ℚ) ^ e := by
  cases s <;> simp [value, size, Sign.apply]

/-- A mantissa that is moved to a smaller exponent stands for the same number. -/
theorem apply_decreaseExponent (s : Sign) {m : Nat} {e f : Int} (h : f ≤ e) :
    ((s.apply (decreaseExponent m e f).1 : Int) : ℚ) * (2 : ℚ) ^ f
      = ((s.apply m : Int) : ℚ) * (2 : ℚ) ^ e := by
  have h_shift : size ((decreaseExponent m e f).1) f = size m e := by
    rw [← size_shift m (e - f).toNat e]
    simp only [decreaseExponent, Nat.shiftLeft_eq]
    congr 1
    omega
  unfold size at h_shift
  cases s <;> simp only [Sign.apply] <;> push_cast <;> linarith

/-- At the smaller of the two exponents the difference of the mantissas is exact, and what is left
is to normalise it. -/
theorem exists_sub_eq_normalize (s t : Sign) {m n : Nat} (hm : 0 < m) (hn : 0 < n) (e f : Int) :
    ∃ k x : Int,
      value (.finite s m e hm) - value (.finite t n f hn) = (k : ℚ) * (2 : ℚ) ^ x ∧
      UnpackedFloat.sub Format.binary64 (.finite s m e hm) (.finite t n f hn)
        = UnpackedFloat.normalize Format.binary64 k x .positive := by
  refine ⟨s.apply (decreaseExponent m e (min e f)).1 - t.apply (decreaseExponent n f (min e f)).1,
    min e f, ?_, rfl⟩
  rw [value_finite, value_finite, ← apply_decreaseExponent s (min_le_left e f),
    ← apply_decreaseExponent t (min_le_right e f)]
  push_cast
  ring

/-- **Subtracting is faithful**: no number lies strictly between the exact difference of two finite
numbers and the one that is computed. -/
theorem sub_faithful (hu : InFormat u) (hv : InFormat v) (hu' : u.isFinite = true)
    (hv' : v.isFinite = true) :
    Faithful (value u - value v) (UnpackedFloat.sub Format.binary64 u v) := by
  rcases zero_or_finite hu' with ⟨s, rfl⟩ | ⟨s, m, e, hm, rfl⟩ <;>
    rcases zero_or_finite hv' with ⟨t, rfl⟩ | ⟨t, n, f, hn, rfl⟩
  · -- which of the two zeros comes out depends on the signs, what it is worth does not
    have h_zero : ∃ r, UnpackedFloat.sub Format.binary64 (.zero s) (.zero t) = .zero r := by
      cases s <;> cases t <;> exact ⟨_, rfl⟩
    obtain ⟨r, hr⟩ := h_zero
    simpa [hr] using Faithful.self (u := .zero r) trivial (by simp)
  · rw [value_zero, zero_sub]
    exact (Faithful.self hv (by simp)).neg
  · rw [value_zero, sub_zero]
    exact Faithful.self hu (by simp)
  · obtain ⟨k, x, h_value, h_sub⟩ := exists_sub_eq_normalize s t hm hn e f
    rw [h_value, h_sub]
    exact faithful_normalize k x .positive

/-- An infinity taken from a finite number leaves the other infinity. -/
theorem sub_infinity (hu : u.isFinite = true) (t : Sign) :
    UnpackedFloat.sub Format.binary64 u (.infinity t) = .infinity (-t) := by
  rcases zero_or_finite hu with ⟨s, rfl⟩ | ⟨s, m, e, hm, rfl⟩ <;> rfl

theorem eq_infinity_of_not_isFinite (hv : v ≠ .notANumber) (h : ¬ v.isFinite = true) :
    ∃ t, v = .infinity t := by
  cases v with
  | notANumber => exact absurd rfl hv
  | infinity t => exact ⟨t, rfl⟩
  | _ => exact absurd rfl h

/-- Taking a number from a finite one gives a number of the grid. -/
theorem sub_onGrid (hu : InFormat u) (hv : InFormat v) (hu' : u.isFinite = true)
    (hv' : v ≠ .notANumber) :
    UnpackedFloat.sub Format.binary64 u v ≠ .notANumber ∧
      OnGrid (UnpackedFloat.sub Format.binary64 u v) := by
  by_cases h_fin : v.isFinite = true
  · have h_faithful := sub_faithful hu hv hu' h_fin
    exact ⟨h_faithful.isNumber, h_faithful.onGrid⟩
  · -- an infinity swallows what it is taken from
    obtain ⟨t, rfl⟩ := eq_infinity_of_not_isFinite hv' h_fin
    rw [sub_infinity hu']
    exact ⟨by simp, trivial⟩

/-- A size of either sign rounds to the same distance from zero. -/
theorem abs_normalize_neg (m e : Int) (s : Sign) :
    (UnpackedFloat.normalize Format.binary64 (-m) e s).abs
      = (UnpackedFloat.normalize Format.binary64 m e s).abs := by
  -- `exists_round` gives one grid point for both signs
  have h_abs : ∀ a f (r r' : Sign), (signed r a f).abs = (signed r' a f).abs := by
    intro a f r r'
    unfold signed
    split <;> rfl
  rcases lt_trichotomy m 0 with h | h | h
  · obtain ⟨a, f, -, h_eq⟩ := exists_round (m := (-m).toNat) (by omega) e
    rw [UnpackedFloat.normalize, UnpackedFloat.normalize, compare_lt_iff_lt.mpr h,
      compare_gt_iff_gt.mpr (by omega : 0 < -m)]
    change (UnpackedFloat.round Format.binary64 .positive (-m).toNat e).abs
      = (UnpackedFloat.round Format.binary64 .negative (-m).toNat e).abs
    rw [h_eq, h_eq, h_abs]
  · subst h
    rfl
  · obtain ⟨a, f, -, h_eq⟩ := exists_round (m := m.toNat) (by omega) e
    rw [UnpackedFloat.normalize, UnpackedFloat.normalize, compare_gt_iff_gt.mpr h,
      compare_lt_iff_lt.mpr (by omega : -m < 0)]
    change (UnpackedFloat.round Format.binary64 .negative (- -m).toNat e).abs
      = (UnpackedFloat.round Format.binary64 .positive m.toNat e).abs
    rw [Int.neg_neg, h_eq, h_eq, h_abs]

/-- **The distance of two numbers** does not depend on their order, to the last bit. -/
theorem abs_sub_comm (hu : u.isFinite = true) (hv : v.isFinite = true) :
    (UnpackedFloat.sub Format.binary64 u v).abs = (UnpackedFloat.sub Format.binary64 v u).abs := by
  rcases zero_or_finite hu with ⟨s, rfl⟩ | ⟨s, m, e, hm, rfl⟩ <;>
    rcases zero_or_finite hv with ⟨t, rfl⟩ | ⟨t, n, f, hn, rfl⟩
  · cases s <;> cases t <;> rfl
  · rfl
  · rfl
  · -- both differences are rounded at the same exponent, with opposite mantissas
    have h_neg := abs_normalize_neg (t.apply (decreaseExponent n f (min f e)).1
      - s.apply (decreaseExponent m e (min f e)).1) (min f e) .positive
    rw [Int.neg_sub, min_comm f e] at h_neg
    change (UnpackedFloat.normalize Format.binary64 _ (min e f) .positive).abs
      = (UnpackedFloat.normalize Format.binary64 _ (min f e) .positive).abs
    rw [min_comm f e]
    exact h_neg

end Sub

/-! ### Stored numbers -/

/-- A stored number taken apart. -/
abbrev parts (x : Float) : UnpackedFloat := x.toModel.unpack

theorem inFormat_parts (x : Float) : InFormat (parts x) := inFormat_unpack _

/-- The computed difference, taken apart, is the rounded one cut off at the infinities. -/
theorem parts_sub {x y : Float}
    (h : OnGrid (UnpackedFloat.sub Format.binary64 (parts x) (parts y))) :
    parts (x - y) = cutOff (UnpackedFloat.sub Format.binary64 (parts x) (parts y)) := by
  rw [← unpack_pack h]
  rfl

theorem parts_abs (x : Float) : parts x.abs = (parts x).abs := by
  have h_parts := inFormat_parts x
  have h_abs : InFormat (parts x).abs := by
    cases h : parts x with
    | finite s m e hm =>
      rw [h] at h_parts
      exact h_parts
    | _ => trivial
  -- the distance from zero is packed again, which changes nothing within the format
  change (Float.Model.pack (parts x).abs).unpack = _
  rw [unpack_pack h_abs.onGrid, h_abs.cutOff_eq]

theorem value_abs (u : UnpackedFloat) : value u.abs = |value u| := by
  cases u with
  | notANumber => exact abs_zero.symm
  | infinity s => cases s <;> simp [UnpackedFloat.abs, value, abs_of_pos limit_pos]
  | zero s => exact abs_zero.symm
  | finite s m e hm =>
    cases s <;> simp [UnpackedFloat.abs, value, abs_of_pos (size_pos hm e)]

theorem abs_ne_notANumber {u : UnpackedFloat} (h : u ≠ .notANumber) : u.abs ≠ .notANumber := by
  cases u <;> simp_all [UnpackedFloat.abs]

/-- A comparison with a non-number has no answer. -/
theorem compare_eq_none {u v : UnpackedFloat} (h : u = .notANumber ∨ v = .notANumber) :
    u.compare v = none := by
  rcases h with rfl | rfl
  · rfl
  · cases u with
    | infinity s => cases s <;> rfl
    | finite s m e hm => cases s <;> rfl
    | _ => rfl

/-- **The order of stored numbers**: a comparison holds between numbers whose values compare so. -/
theorem compare_parts {x y : Float} {o : Ordering} :
    (parts x).compare (parts y) = some o ↔ parts x ≠ .notANumber ∧ parts y ≠ .notANumber ∧
      compare (value (parts x)) (value (parts y)) = o := by
  by_cases h : parts x = .notANumber ∨ parts y = .notANumber
  · rw [compare_eq_none h]
    rcases h with h | h <;> simp [h]
  · push Not at h
    rw [compare_eq (inFormat_parts x) (inFormat_parts y) h.1 h.2]
    simp [h.1, h.2]

theorem lt_iff_value_lt {x y : Float} : x < y ↔ parts x ≠ .notANumber ∧ parts y ≠ .notANumber ∧
    value (parts x) < value (parts y) := by
  rw [← compare_lt_iff_lt, ← compare_parts]
  change decide (x.toModel < y.toModel) = true ↔ _
  rw [decide_eq_true_iff]
  exact beq_iff_eq

theorem le_iff_value_le {x y : Float} : x ≤ y ↔ parts x ≠ .notANumber ∧ parts y ≠ .notANumber ∧
    value (parts x) ≤ value (parts y) := by
  have h_isLE : x ≤ y ↔ ((parts x).compare (parts y)).any (·.isLE) = true := by
    change decide (x.toModel ≤ y.toModel) = true ↔ _
    rw [decide_eq_true_iff]
    rfl
  rw [h_isLE, Option.any_eq_true, ← compare_le_iff_le]
  simp only [compare_parts]
  constructor
  · rintro ⟨o, ⟨hx, hy, rfl⟩, h_le⟩
    exact ⟨hx, hy, Ordering.isLE_iff_ne_gt.mp h_le⟩
  · rintro ⟨hx, hy, h_le⟩
    exact ⟨_, ⟨hx, hy, rfl⟩, Ordering.isLE_iff_ne_gt.mpr h_le⟩

theorem beq_iff_value_eq {x y : Float} : (x == y) = true ↔ parts x ≠ .notANumber ∧
    parts y ≠ .notANumber ∧ value (parts x) = value (parts y) := by
  rw [← compare_eq_iff_eq (a := value (parts x)), ← compare_parts]
  change ((parts x).compare (parts y) == some .eq) = true ↔ _
  exact beq_iff_eq

section Stored

variable {x y : Float}

theorem sub_isNumber (hx : (parts x).isFinite = true) (hy : parts y ≠ .notANumber) :
    parts (x - y) ≠ .notANumber := by
  have h_grid := sub_onGrid (inFormat_parts x) (inFormat_parts y) hx hy
  rw [parts_sub h_grid.2]
  exact cutOff_ne_notANumber h_grid.1

/-- Taking something positive away from a finite number does not make it larger. -/
theorem value_sub_le (hx : (parts x).isFinite = true) (hy : parts y ≠ .notANumber)
    (hy' : 0 < value (parts y)) : value (parts (x - y)) ≤ value (parts x) := by
  have h_format := inFormat_parts x
  rw [parts_sub (sub_onGrid h_format (inFormat_parts y) hx hy).2]
  by_cases h_fin : (parts y).isFinite = true
  · -- the exact difference is below `x`, and rounding does not cross `x`
    exact (sub_faithful h_format (inFormat_parts y) hx h_fin).value_le h_format (by linarith)
  · obtain ⟨t, ht⟩ := eq_infinity_of_not_isFinite hy h_fin
    rw [ht] at hy'
    cases t
    · exact absurd hy' (by simpa [value] using limit_pos.le)
    · -- no number is below the negative infinity
      rw [ht, sub_infinity hx]
      exact (abs_le.mp (abs_value_le h_format)).1

/-- The difference of two finite numbers of the same value is zero. -/
theorem value_sub_eq_zero (hx : (parts x).isFinite = true) (hy : (parts y).isFinite = true)
    (h : value (parts x) = value (parts y)) : value (parts (x - y)) = 0 := by
  have h_faithful := sub_faithful (inFormat_parts x) (inFormat_parts y) hx hy
  -- zero is a number of the format, so a difference that is exactly zero is not rounded off it
  have h_zero : value (parts x) - value (parts y) = value (.zero .positive) := by
    rw [h, sub_self, value_zero]
  rw [parts_sub h_faithful.onGrid]
  exact le_antisymm (h_faithful.value_le (z := .zero .positive) trivial h_zero.le)
    (h_faithful.le_value (z := .zero .positive) trivial h_zero.ge)

theorem abs_sub_comm_of_isFinite (hx : (parts x).isFinite = true)
    (hy : (parts y).isFinite = true) : (x - y).abs = (y - x).abs := by
  have h_xy := sub_faithful (inFormat_parts x) (inFormat_parts y) hx hy
  have h_yx := sub_faithful (inFormat_parts y) (inFormat_parts x) hy hx
  change Float.ofModel (Float.Model.pack (parts (x - y)).abs)
    = Float.ofModel (Float.Model.pack (parts (y - x)).abs)
  rw [parts_sub h_xy.onGrid, parts_sub h_yx.onGrid, cutOff_abs, cutOff_abs,
    abs_sub_comm hx hy]

end Stored

end ClipEdit.Binary64
