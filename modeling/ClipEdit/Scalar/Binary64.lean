import ClipEdit.Scalar

/-!
# Binary64 scalars

The reading of `Scalar` that runs: IEEE 754 binary64 numbers.

A finite number is taken apart once, by `Binary64.decode`, into a sign and a product `m · 2^q` of a
whole number and a power of two. Rounding to a whole number is then exact arithmetic on `m` and `q`,
and `Decimal.shortest` finds the digits to print from the same two numbers.
-/

namespace ClipEdit

/-- What a binary64 number stands for. -/
inductive Binary64 where
  | nan
  | infinite (negative : Bool)
  /-- The number `± mantissa · 2 ^ exponent`. -/
  | finite (negative : Bool) (mantissa : Nat) (exponent : Int)
deriving Repr, DecidableEq

namespace Binary64

-- powers of natural numbers are computed as such, and not as powers in a monoid
attribute [local instance (high)] instPowNat

/-- The sign, the mantissa and the exponent that the bits of `x` name. Subnormal numbers have the
exponent of the smallest normal ones and no implicit leading bit. -/
def decode (x : Float) : Binary64 :=
  let bits : Nat := x.toBits.toNat
  let negative : Bool := decide (2 ^ (63 : Nat) ≤ bits)
  let biased : Nat := bits / 2 ^ (52 : Nat) % 2 ^ (11 : Nat)
  let fraction : Nat := bits % 2 ^ (52 : Nat)
  if biased = 2 ^ (11 : Nat) - 1 then
    if fraction = 0 then infinite negative else nan
  else if biased = 0 then finite negative fraction (-1074)
  else finite negative (2 ^ (52 : Nat) + fraction) ((biased : Int) - 1075)

/-- `mantissa / 2 ^ places` to the nearest whole number, a half upwards. -/
def roundHalfUp (mantissa places : Nat) : Nat :=
  (2 * mantissa + 2 ^ places) / 2 ^ (places + 1)

/-- The nearest whole number, a half away from zero. A number without a fractional part, an
infinity and a non-number stay what they are. The sign is kept, so a small negative number rounds
to the negative zero. -/
def roundWhole (x : Float) : Float :=
  match decode x with
  | finite negative mantissa (.negSucc k) =>
      let whole := Float.ofNat (roundHalfUp mantissa (k + 1))
      if negative then -whole else whole
  | _ => x

end Binary64

instance : Scalar Float where
  natCast := Float.ofNat
  decidableLT := inferInstance
  decidableLE := inferInstance
  isFinite := Float.isFinite
  magnitude := Float.abs
  roundWhole := Binary64.roundWhole
  toFrame x := x.toUInt32.toNat

end ClipEdit
