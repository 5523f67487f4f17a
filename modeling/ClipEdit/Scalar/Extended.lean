import ClipEdit.Scalar.Exact

/-!
# Extended scalars

The reading of `Scalar` in which numbers are exact, as in `ClipEdit.Scalar.Exact`, and everything
else that arithmetic can come to is kept: two infinities and a value that is not a number. An
overlay read from a preview without an extent may hold any of them.

A non-number spoils every operation that it enters, and every comparison with it is false. An
infinity swallows the numbers that it meets; where it meets one that it cannot be weighed against,
the result is not a number. There is only one zero. It has no sign, and a number divided by it is
the infinity of its own sign.
-/

namespace ClipEdit

/-- A rational number, an infinity, or no number at all. -/
inductive Extended where
  | nan
  | infinite (negative : Bool)
  | finite (q : Rat)
deriving Repr, DecidableEq

namespace Extended

/-- The value with the other sign. -/
def neg : Extended → Extended
  | nan => nan
  | infinite negative => infinite (!negative)
  | finite q => finite (-q)

/-- Two infinities add up only if they are the same. -/
def add : Extended → Extended → Extended
  | finite p, finite q => finite (p + q)
  | infinite negative, finite _ => infinite negative
  | finite _, infinite negative => infinite negative
  | infinite negative, infinite negative' =>
      if negative = negative' then infinite negative else nan
  | _, _ => nan

/-- An infinity times a number, which zero cannot decide. -/
def scaled (negative : Bool) (q : Rat) : Extended :=
  if q = 0 then nan else infinite (negative != decide (q < 0))

/-- The product of two values. -/
def mul : Extended → Extended → Extended
  | finite p, finite q => finite (p * q)
  | infinite negative, finite q => scaled negative q
  | finite q, infinite negative => scaled negative q
  | infinite negative, infinite negative' => infinite (negative != negative')
  | _, _ => nan

/-- The quotient of two values. -/
def div : Extended → Extended → Extended
  | finite p, finite q =>
      if q = 0 then scaled false p else finite (p / q)
  | infinite negative, finite q => infinite (negative != decide (q < 0))
  | finite _, infinite _ => finite 0
  | _, _ => nan

/-- The strict order: from one infinity over all numbers to the other one. -/
def lt : Extended → Extended → Bool
  | finite p, finite q => p < q
  | infinite negative, finite _ => negative
  | finite _, infinite negative => !negative
  | infinite negative, infinite negative' => negative && !negative'
  | _, _ => false

/-- Equality as numbers are compared: a non-number differs from itself. -/
def beq (x y : Extended) : Bool :=
  x ≠ nan && x = y

instance : BEq Extended := ⟨beq⟩

/-- The order. -/
def le (x y : Extended) : Bool :=
  lt x y || beq x y

/-- The distance from zero. -/
def magnitude : Extended → Extended
  | nan => nan
  | infinite _ => infinite false
  | finite q => finite (Scalar.magnitude q)

/-- The nearest whole number; what is no finite number stays what it is. -/
def roundWhole : Extended → Extended
  | finite q => finite (Exact.roundWhole q)
  | x => x

/-- The whole part as a frame index. -/
def toFrame : Extended → Frame
  | nan => 0
  | infinite negative => if negative then 0 else Frame.limit
  | finite q => Exact.toFrame q

/-- Is the value a number, and no infinity? -/
def isFinite : Extended → Bool
  | finite _ => true
  | _ => false

instance : Scalar Extended where
  zero := finite 0
  add := add
  sub x y := add x (neg y)
  mul := mul
  div := div
  lt x y := lt x y = true
  le x y := le x y = true
  natCast n := finite n
  ofScientific mantissa negative exponent :=
    finite (OfScientific.ofScientific mantissa negative exponent)
  decidableLT x y := inferInstanceAs (Decidable (lt x y = true))
  decidableLE x y := inferInstanceAs (Decidable (le x y = true))
  isFinite := isFinite
  magnitude := magnitude
  roundWhole := roundWhole
  toFrame := toFrame

end Extended

end ClipEdit
