/-!
# Decimal digits

Whole numbers as lists of decimal digits, the most significant first, and digits as characters.

* `value_digits` — reading the digits of a number gives the number back;
* `ofChar?_toChar` — and so does reading the character of a digit.
-/

namespace ClipEdit.Decimal

/-- A decimal digit. -/
abbrev Digit := Fin 10

/-- The digit `0`. -/
def Digit.zero : Digit := ⟨0, by decide⟩

/-- The ASCII character of a digit. -/
def Digit.toChar (d : Digit) : Char :=
  Char.ofNat (48 + d.val)

/-- The digit that an ASCII character stands for. Digits of other scripts are not read. -/
def Digit.ofChar? (c : Char) : Option Digit :=
  if h : 48 ≤ c.toNat ∧ c.toNat < 58 then some ⟨c.toNat - 48, by omega⟩ else none

@[simp] theorem Digit.ofChar?_toChar (d : Digit) : Digit.ofChar? d.toChar = some d := by
  revert d; decide

/-- The decimal digits of `n`; zero has one. -/
def digits (n : Nat) : List Digit :=
  if h : n < 10 then [⟨n, h⟩]
  else digits (n / 10) ++ [⟨n % 10, Nat.mod_lt n (by decide)⟩]
termination_by n
decreasing_by omega

/-- The number that a list of digits denotes; the empty list denotes zero. -/
def value (ds : List Digit) : Nat :=
  ds.foldl (fun n d => 10 * n + d.val) 0

theorem value_append_singleton (ds : List Digit) (d : Digit) :
    value (ds ++ [d]) = 10 * value ds + d.val := by
  simp [value]

/-- **Digits denote their number.** -/
theorem value_digits (n : Nat) : value (digits n) = n := by
  induction n using Nat.strongRecOn with
  | ind n ih =>
    rw [digits]
    split
    · simp [value]
    · rename_i h
      rw [value_append_singleton, ih (n / 10) (by omega)]
      simp only
      omega

/-- A whole number in decimal notation. -/
def natText (n : Nat) : String :=
  String.ofList ((digits n).map Digit.toChar)

end ClipEdit.Decimal
