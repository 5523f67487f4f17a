import ClipEdit.Scalar.Binary64

/-!
# Shortest decimals

The decimal that a binary64 number is printed as: among the decimals that read back as the number,
those with the fewest digits, and among these the one nearest to it.

Everything happens in exact natural-number arithmetic. A positive number `m · 2^q` is the only one
that the decimals between `lower` and `upper` read back as; the two ends belong to it when `m` is
even, because reading rounds a half to the even neighbour. `shortestOn` tries the grids of
`1, 2, …, 17` digits in turn. On a grid only the two neighbours of the number can be nearest to it,
so only they are tested; seventeen digits always suffice.
-/

namespace ClipEdit

/-- A decimal `coefficient · 10 ^ exponent`. -/
structure Decimal where
  coefficient : Nat
  exponent : Int
deriving Repr, DecidableEq

namespace Decimal

-- powers of natural numbers are computed as such, and not as powers in a monoid
attribute [local instance (high)] instPowNat

/-- Which of two decimals wins that are equally near to the number. -/
inductive Tie where
  | even
  | up
deriving Repr, DecidableEq

/-- A positive rational `numerator / denominator`, not necessarily in lowest terms. -/
structure Ratio where
  numerator : Nat
  denominator : Nat
deriving Repr

namespace Ratio

/-- `m · 2 ^ q`. -/
def ofBinary (m : Nat) (q : Int) : Ratio :=
  match q with
  | .ofNat n => ⟨m * 2 ^ n, 1⟩
  | .negSucc n => ⟨m, 2 ^ (n + 1)⟩

/-- `r · 10 ^ (-e)`: the number of grid steps of width `10 ^ e` in `r`. -/
def steps (r : Ratio) (e : Int) : Ratio :=
  match e with
  | .ofNat n => ⟨r.numerator, r.denominator * 10 ^ n⟩
  | .negSucc n => ⟨r.numerator * 10 ^ (n + 1), r.denominator⟩

end Ratio

/-- The numbers that read back as one binary64 number: those between `lower` and `upper`, with the
ends when `inclusive`. -/
structure Interval where
  lower : Ratio
  upper : Ratio
  inclusive : Bool

/-- The interval around `m · 2 ^ q`. Half a unit reaches to each side, except below a power of two,
where the neighbour is only half as far away. -/
def Interval.around (m : Nat) (q : Int) : Interval :=
  let below := if m = 2 ^ (52 : Nat) ∧ -1074 < q then 4 * m - 1 else 4 * m - 2
  { lower := .ofBinary below (q - 2)
    upper := .ofBinary (4 * m + 2) (q - 2)
    inclusive := m % 2 == 0 }

/-- Does the grid point `d · 10 ^ e` lie in the interval? -/
def Interval.holds (i : Interval) (d : Nat) (e : Int) : Bool :=
  let lower := i.lower.steps e
  let upper := i.upper.steps e
  let point := d * lower.denominator
  let point' := d * upper.denominator
  if i.inclusive then lower.numerator ≤ point && point' ≤ upper.numerator
  else lower.numerator < point && point' < upper.numerator

/-- The decimal on the grid of width `10 ^ e` that reads back as `value`, if there is one: the
nearer one of the two neighbours of `value`. -/
def nearestOn (value : Ratio) (i : Interval) (tie : Tie) (e : Int) : Option Nat :=
  let steps := value.steps e
  let d := steps.numerator / steps.denominator
  let rest := steps.numerator % steps.denominator
  let downOk := i.holds d e && d != 0
  let upOk := i.holds (d + 1) e
  let upWins := steps.denominator < 2 * rest ||
    (steps.denominator == 2 * rest && (tie == .up || d % 2 == 1))
  if downOk && upOk then some (if upWins then d + 1 else d)
  else if downOk then some d
  else if upOk then some (d + 1)
  else none

/-- The number of decimal digits of `n`. -/
def digitCount (n : Nat) : Nat :=
  if n < 10 then 1 else digitCount (n / 10) + 1

/-- A decimal exponent `k` with `10 ^ (k - 1) ≤ value < 10 ^ k`. -/
def magnitude (value : Ratio) : Int :=
  if value.denominator ≤ value.numerator then
    (digitCount (value.numerator / value.denominator) : Int)
  else
    let inverse := value.denominator / value.numerator
    let k : Int := 1 - (digitCount inverse : Int)
    -- `10 ^ (k - 1) ≤ value` fails only when the quotient was rounded down to a power of ten
    if value.denominator ≤ value.numerator * 10 ^ (digitCount inverse - 1) then k + 1 else k

/-- The first grid with a hit, from one digit onwards. -/
def shortestOn (value : Ratio) (i : Interval) (tie : Tie) (k : Int) : List Nat → Option Decimal
  | [] => none
  | digits :: more =>
      let e := k - digits
      match nearestOn value i tie e with
      | some d => some ⟨d, e⟩
      | none => shortestOn value i tie k more

/-- Drop the zeros at the end of the coefficient. -/
def trim (d : Decimal) : Decimal :=
  if h : d.coefficient = 0 then ⟨0, 0⟩
  else if d.coefficient % 10 = 0 then
    trim ⟨d.coefficient / 10, d.exponent + 1⟩
  else d
termination_by d.coefficient
decreasing_by omega

/-- The shortest decimal for the positive number `m · 2 ^ q`. -/
def shortest (m : Nat) (q : Int) (tie : Tie) : Decimal :=
  let value := Ratio.ofBinary m q
  match shortestOn value (.around m q) tie (magnitude value) (List.range' 1 17) with
  | some d => d.trim
  | none => ⟨0, 0⟩

end Decimal

end ClipEdit
