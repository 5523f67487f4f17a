import ClipEdit.Decimal.Digits
import ClipEdit.Decimal.Shortest

/-!
# Positional layout of decimals

Where the decimal point goes. A decimal `coefficient · 10 ^ exponent` is cut into the digits before
and after its point; `plainText` writes a binary64 number that way whatever its size, as the
messages of this library do: shortest digits, never an exponent, no point in a whole number, `-0`
for the negative zero.
-/

namespace ClipEdit.Decimal

/-- The number of digits before the decimal point, or minus the number of zeros that follow the
point before the first digit. -/
def pointPosition (d : Decimal) : Int :=
  ((digits d.coefficient).length : Int) + d.exponent

/-- The digits before the decimal point, at least one. -/
def wholeDigits (d : Decimal) : List Digit :=
  match d.pointPosition with
  | .ofNat (n + 1) =>
      let ds := digits d.coefficient
      ds.take (n + 1) ++ List.replicate (n + 1 - ds.length) 0
  | _ => [0]

/-- The digits after the decimal point, possibly none. -/
def fractionDigits (d : Decimal) : List Digit :=
  let ds := digits d.coefficient
  match d.pointPosition with
  | .ofNat n => ds.drop n
  | .negSucc n => List.replicate (n + 1) 0 ++ ds

/-- A binary64 number in positional notation. -/
def plainText (x : Float) : String :=
  match Binary64.decode x with
  | .nan => "NaN"
  | .infinite negative => if negative then "-inf" else "inf"
  | .finite negative 0 _ => if negative then "-0" else "0"
  | .finite negative m q =>
      let d := shortest m q .up
      let whole := d.wholeDigits.map Digit.toChar
      let fraction := d.fractionDigits.map Digit.toChar
      let body := if fraction.isEmpty then whole else whole ++ '.' :: fraction
      String.ofList (if negative then '-' :: body else body)

end ClipEdit.Decimal
