/-!
# Scalars

Every quantity the editor computes with — pixels, seconds, zoom factors, playback speeds — is a
*scalar*. The editing core is written once over the class `Scalar` and read in several ways:

* at `Float` it is the program that runs (`ClipEdit.Scalar.Binary64`);
* at `Rat` it is the same editing core in exact arithmetic (`ClipEdit.Scalar.Exact`), where its
  geometry can be reasoned about without rounding error;
* at `Extended` the arithmetic is exact too, and infinities and non-numbers are kept
  (`ClipEdit.Scalar.Extended`).

A scalar type may hold a value that is not a number: one that differs from itself and for which
every comparison is false. The operations below that choose between two scalars (`atLeast`,
`atMost`, `within`, `clamp`) therefore say what they do with it.

* `atLeast x lo`, `atMost x hi` — the larger (smaller) of the two, ignoring a non-number;
* `within x lo hi` — raised to `lo`, then lowered to `hi`, so `hi` wins when the range is empty;
* `clamp x lo hi` — the same for a number in a non-empty range, but a non-number is kept;
* `roundMilli x` — rounded to a whole number of thousandths, never to a negative zero.
-/

namespace ClipEdit

/-- A frame index, counted from the first frame of a clip. -/
abbrev Frame := Nat

/-- The largest frame index: a time beyond it is shown as this frame. -/
def Frame.limit : Frame := 4294967295

/-- **Arithmetic of the editor.** The four operations, the order and decimal literals, together
with the few functions on numbers that the editor needs besides them. -/
class Scalar (α : Type) extends Zero α, Add α, Sub α, Mul α, Div α, LT α, LE α, BEq α,
    NatCast α, OfScientific α where
  /-- The strict order can be tested. -/
  decidableLT : DecidableLT α
  /-- The order can be tested. -/
  decidableLE : DecidableLE α
  /-- Neither an infinity nor a non-number. -/
  isFinite : α → Bool
  /-- The distance from zero. -/
  magnitude : α → α
  /-- The nearest whole number; a half goes away from zero. -/
  roundWhole : α → α
  /-- The whole part as a frame index: nothing below frame `0`, nothing past `Frame.limit`, and
  frame `0` for a non-number. -/
  toFrame : α → Frame

namespace Scalar

variable {α : Type} [Scalar α]

instance (x y : α) : Decidable (x < y) := decidableLT x y

instance (x y : α) : Decidable (x ≤ y) := decidableLE x y

/-- The larger of `x` and `lo`, or the one that is a number. -/
def atLeast (x lo : α) : α :=
  if x < lo then lo else if x == x then x else lo

/-- The smaller of `x` and `hi`, or the one that is a number. -/
def atMost (x hi : α) : α :=
  if hi < x then hi else if x == x then x else hi

/-- `x` raised to `lo` and then lowered to `hi`. When `lo` exceeds `hi` the result is `hi`. -/
def within (x lo hi : α) : α :=
  atMost (atLeast x lo) hi

/-- `x` moved into the range from `lo` to `hi`; a non-number stays what it is. -/
def clamp (x lo hi : α) : α :=
  let raised := if x < lo then lo else x
  if hi < raised then hi else raised

/-- The sum of a list, added up from the left. It begins with the first item and not with zero, so
that a sum of negative zeros keeps its sign. -/
def sum : List α → α
  | [] => 0
  | x :: xs => xs.foldl (fun total x => total + x) x

/-- `x` rounded to a whole number of thousandths. A result that equals zero is the positive zero,
so that no payload ever shows `-0.0`. -/
def roundMilli (x : α) : α :=
  let rounded := roundWhole (x * 1000.0) / 1000.0
  if rounded == 0 then 0 else rounded

/-- The point a fraction `t` of the way from `a` to `b`. -/
def blend (a b t : α) : α :=
  a + (b - a) * t

/-- Fold one binary digit of the exponent at a time: `acc` collects the product, `base` is squared
at every step. -/
def powerLoop (acc base : α) (n : Nat) : α :=
  let acc := if n % 2 = 1 then acc * base else acc
  if 2 ≤ n then powerLoop acc (base * base) (n / 2) else acc
termination_by n
decreasing_by omega

/-- Whole powers by repeated squaring; a negative power is the reciprocal of the positive one. -/
def power (x : α) (n : Int) : α :=
  let r := powerLoop 1.0 x n.natAbs
  if n < 0 then 1.0 / r else r

end Scalar

end ClipEdit
