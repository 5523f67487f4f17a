import ClipEdit.Decimal.Layout

/-!
# JSON numbers

A JSON number is kept as it is written, digit by digit, so that a whole number and a number with a
fraction stay apart and nothing is lost before a reader asks for a value.

* `Number.ofFloat?` writes a binary64 number with the fewest digits that read back, always with a
  fraction or an exponent; infinities and non-numbers have no JSON form.
* `Number.toFloat?` is the binary64 number of a written number, when it is not too large.
* `Number.toNat?` is its value as a count: it must be written without sign, fraction and exponent.
-/

namespace ClipEdit.Json

open Decimal (Digit)

/-- How the sign of an exponent is written. -/
inductive ExponentSign where
  | unsigned
  | plus
  | minus
deriving Repr, DecidableEq

/-- A number as JSON writes it. An empty `fraction` means that there is no decimal point. -/
structure Number where
  negative : Bool
  whole : List Digit
  fraction : List Digit
  exponent : Option (ExponentSign × List Digit)
deriving Repr, DecidableEq

namespace Number

/-- The characters of an exponent sign. -/
def signText : ExponentSign → List Char
  | .unsigned => []
  | .plus => ['+']
  | .minus => ['-']

/-- The characters of the number. -/
def text (n : Number) : List Char :=
  (if n.negative then ['-'] else []) ++ n.whole.map Digit.toChar ++
  (if n.fraction.isEmpty then [] else '.' :: n.fraction.map Digit.toChar) ++
  (match n.exponent with
   | none => []
   | some (sign, ds) => 'e' :: signText sign ++ ds.map Digit.toChar)

/-- A count, written without sign, fraction and exponent. -/
def ofNat (n : Nat) : Number :=
  ⟨false, Decimal.digits n, [], none⟩

/-! ### Writing binary64 numbers -/

/-- A nonzero decimal. The point stands where it belongs for magnitudes from `10 ^ (-5)` up to
`10 ^ 16`; smaller and larger ones are written with one digit before the point and an exponent that
carries its sign. -/
def ofDecimal (negative : Bool) (d : Decimal) : Number :=
  let scale := d.pointPosition - 1
  if -5 ≤ scale ∧ scale < 16 then
    let fraction := d.fractionDigits
    ⟨negative, d.wholeDigits, if fraction.isEmpty then [.zero] else fraction, none⟩
  else
    let ds := Decimal.digits d.coefficient
    let sign := if scale < 0 then ExponentSign.minus else ExponentSign.plus
    ⟨negative, ds.take 1, ds.drop 1, some (sign, Decimal.digits scale.natAbs)⟩

/-- The JSON form of a binary64 number: the shortest decimal that reads back, of two equally near
ones the one with the even last digit. -/
def ofFloat? (x : Float) : Option Number :=
  match Binary64.decode x with
  | .nan => none
  | .infinite _ => none
  | .finite negative 0 _ => some ⟨negative, [.zero], [.zero], none⟩
  | .finite negative m q => some (ofDecimal negative (Decimal.shortest m q .even))

/-! ### Reading binary64 numbers

Reading works on a 64-bit significand. Digits that no longer fit are dropped; dropped digits before
the decimal point still count for the power of ten. The significand is converted first and then
multiplied or divided by a power of ten, each step rounded to binary64. -/

/-- The largest significand. -/
def significandLimit : Nat := 18446744073709551615

/-- Append digits to a significand while it stays within the limit; what is left over follows. -/
def accumulate (significand : Nat) : List Digit → Nat × List Digit
  | [] => (significand, [])
  | d :: ds =>
      if significandLimit < 10 * significand + d.val then (significand, d :: ds)
      else accumulate (10 * significand + d.val) ds

/-- The significand of the number and the power of ten that goes with it, the written exponent
left aside. -/
def significand (n : Number) : Nat × Int :=
  let (whole, dropped) := accumulate 0 n.whole
  let (all, unread) := accumulate whole n.fraction
  (all, (dropped.length : Int) - ((n.fraction.length - unread.length : Nat) : Int))

/-- The written exponent; zero when there is none. -/
def writtenExponent (n : Number) : Int :=
  match n.exponent with
  | none => 0
  | some (.minus, ds) => -(Decimal.value ds : Int)
  | some (_, ds) => (Decimal.value ds : Int)

/-- The power `10 ^ k` as a binary64 number, for `k` up to `308`. -/
def powerOfTen (k : Nat) : Float :=
  OfScientific.ofScientific 1 false k

/-- `x / 10 ^ k`, divided in steps of at most `10 ^ 308`. -/
def divideByPower (x : Float) (k : Nat) : Float :=
  if k ≤ 308 then x / powerOfTen k
  else if x == 0 then x
  else divideByPower (x / powerOfTen 308) (k - 308)
termination_by k
decreasing_by omega

/-- The binary64 number that is written; `none` when it is out of range. -/
def toFloat? (n : Number) : Option Float :=
  let (significand, scale) := n.significand
  let x := Float.ofNat significand
  let magnitude? : Option Float :=
    match scale + n.writtenExponent with
    | .negSucc k => some (divideByPower x (k + 1))
    | .ofNat k =>
        if k ≤ 308 then
          let product := x * powerOfTen k
          if product.isFinite then some product else none
        else if x == 0 then some x
        else none
  magnitude?.map fun x => if n.negative then -x else x

/-- The count that is written, if it is one and fits 64 bits. -/
def toNat? (n : Number) : Option Nat :=
  if n.negative || !n.fraction.isEmpty || n.exponent.isSome then none
  else
    let count := Decimal.value n.whole
    if count ≤ significandLimit then some count else none

end Number

end ClipEdit.Json
