import ClipEdit.Json.Basic

/-!
# Reading JSON

`parse?` accepts exactly the JSON texts: one value, with nothing but blanks around it. It refuses a
comma before a closing bracket, a number with a leading zero or plus sign, an unescaped control
character inside a string literal and every other extension of the format.

A string literal is read in two steps. `readUnits` splits it into plain characters and the code
units named by `\u` escapes; `joinUnits` then pairs the surrogates among those, and finds no text
when one of them stays alone.
-/

namespace ClipEdit.Json

open Decimal (Digit)

/-- The blanks that may stand between the parts of a JSON text. -/
def isBlank (c : Char) : Bool :=
  c = ' ' || c = '\t' || c = '\n' || c = '\r'

/-- The text behind any leading blanks. -/
def skipBlanks (cs : List Char) : List Char :=
  cs.dropWhile isBlank

/-! ### String literals -/

/-- A piece of a string literal: a character, or the code unit that an escape names. -/
inductive CodeUnit where
  | char (c : Char)
  | escaped (n : Nat)
deriving Repr, DecidableEq

/-- The value of a hexadecimal digit of either case. -/
def hexValue? (c : Char) : Option Nat :=
  let n := c.toNat
  if 48 ≤ n ∧ n < 58 then some (n - 48)
  else if 97 ≤ n ∧ n < 103 then some (n - 87)
  else if 65 ≤ n ∧ n < 71 then some (n - 55)
  else none

/-- The character that a one-letter escape stands for. -/
def escapedChar? (c : Char) : Option Char :=
  if c = '"' then some '"'
  else if c = '\\' then some '\\'
  else if c = '/' then some '/'
  else if c = 'b' then some '\x08'
  else if c = 'f' then some '\x0c'
  else if c = 'n' then some '\n'
  else if c = 'r' then some '\r'
  else if c = 't' then some '\t'
  else none

/-- The pieces of a string literal, from behind its opening quotation mark, and the text that
follows its closing one. -/
def readUnits : List Char → Option (List CodeUnit × List Char)
  | [] => none
  | '"' :: cs => some ([], cs)
  | '\\' :: 'u' :: a :: b :: c :: d :: cs => do
      let n := (← hexValue? a) * 4096 + (← hexValue? b) * 256 + (← hexValue? c) * 16 + (← hexValue? d)
      let (units, rest) ← readUnits cs
      some (.escaped n :: units, rest)
  | '\\' :: c :: cs => do
      let c ← escapedChar? c
      let (units, rest) ← readUnits cs
      some (.char c :: units, rest)
  | c :: cs =>
      if c.toNat < 32 then none
      else do
        let (units, rest) ← readUnits cs
        some (.char c :: units, rest)

/-- The first code unit of a surrogate pair. -/
def isLeadSurrogate (n : Nat) : Bool :=
  0xD800 ≤ n && n < 0xDC00

/-- The second code unit of a surrogate pair. -/
def isTrailSurrogate (n : Nat) : Bool :=
  0xDC00 ≤ n && n < 0xE000

/-- The text of a string literal, `none` when it holds an unpaired surrogate. -/
def joinUnits : List CodeUnit → Option (List Char)
  | [] => some []
  | .char c :: units => (c :: ·) <$> joinUnits units
  | .escaped n :: units =>
      if isLeadSurrogate n then
        match units with
        | .escaped trail :: rest =>
            if isTrailSurrogate trail then
              (Char.ofNat (0x10000 + (n - 0xD800) * 0x400 + (trail - 0xDC00)) :: ·) <$> joinUnits rest
            else none
        | _ => none
      else if isTrailSurrogate n then none
      else (Char.ofNat n :: ·) <$> joinUnits units

/-- A string literal, from behind its opening quotation mark. -/
def readLiteral (cs : List Char) : Option (Literal × List Char) := do
  let (units, rest) ← readUnits cs
  some ((joinUnits units).map String.ofList, rest)

/-! ### Numbers -/

/-- The digits at the beginning of a text, and the rest. -/
def splitDigits : List Char → List Digit × List Char
  | [] => ([], [])
  | c :: cs =>
      match Digit.ofChar? c with
      | some d => ((d :: (splitDigits cs).1), (splitDigits cs).2)
      | none => ([], c :: cs)

/-- The whole part of a number: a single zero, or digits that do not begin with one. -/
def readWhole (cs : List Char) : Option (List Digit × List Char) :=
  match splitDigits cs with
  | ([], _) => none
  | (d :: ds, rest) =>
      if d = .zero then if ds.isEmpty then some ([.zero], rest) else none
      else some (d :: ds, rest)

/-- The part behind a decimal point, if there is one. -/
def readFraction : List Char → Option (List Digit × List Char)
  | '.' :: cs =>
      match splitDigits cs with
      | ([], _) => none
      | (d :: ds, rest) => some (d :: ds, rest)
  | cs => some ([], cs)

/-- The sign of an exponent. -/
def readSign : List Char → ExponentSign × List Char
  | '+' :: cs => (.plus, cs)
  | '-' :: cs => (.minus, cs)
  | cs => (.unsigned, cs)

/-- The digits of an exponent, from behind its letter. -/
def readPower (cs : List Char) : Option (ExponentSign × List Digit × List Char) :=
  let (sign, cs) := readSign cs
  match splitDigits cs with
  | ([], _) => none
  | (d :: ds, rest) => some (sign, d :: ds, rest)

/-- The exponent, if there is one. -/
def readExponent : List Char → Option (Option (ExponentSign × List Digit) × List Char)
  | 'e' :: cs => do
      let (sign, ds, rest) ← readPower cs
      some (some (sign, ds), rest)
  | 'E' :: cs => do
      let (sign, ds, rest) ← readPower cs
      some (some (sign, ds), rest)
  | cs => some (none, cs)

/-- The part of a number behind its sign. -/
def readMagnitude (negative : Bool) (cs : List Char) : Option (Number × List Char) := do
  let (whole, cs) ← readWhole cs
  let (fraction, cs) ← readFraction cs
  let (exponent, cs) ← readExponent cs
  some (⟨negative, whole, fraction, exponent⟩, cs)

/-- A number. -/
def readNumber : List Char → Option (Number × List Char)
  | '-' :: cs => readMagnitude true cs
  | cs => readMagnitude false cs

/-! ### Values

The recursion is bounded by `fuel`. One unit is spent per value, per item and per field, so twice
the length of the text is always enough. -/

mutual

/-- A value, blanks before it allowed, and the text that follows it. -/
def readValue : Nat → List Char → Option (Json × List Char)
  | 0, _ => none
  | fuel + 1, cs =>
      match skipBlanks cs with
      | 'n' :: 'u' :: 'l' :: 'l' :: rest => some (null, rest)
      | 't' :: 'r' :: 'u' :: 'e' :: rest => some (bool true, rest)
      | 'f' :: 'a' :: 'l' :: 's' :: 'e' :: rest => some (bool false, rest)
      | '"' :: rest => do
          let (s, rest) ← readLiteral rest
          some (string s, rest)
      | '[' :: rest =>
          match skipBlanks rest with
          | ']' :: rest => some (array [], rest)
          | rest => do
              let (items, rest) ← readItems fuel rest
              some (array items, rest)
      | '\x7b' :: rest =>
          match skipBlanks rest with
          | '\x7d' :: rest => some (object [], rest)
          | rest => do
              let (fields, rest) ← readFields fuel rest
              some (object fields, rest)
      | rest => do
          let (n, rest) ← readNumber rest
          some (number n, rest)

/-- One item or more, up to and including the closing bracket. -/
def readItems : Nat → List Char → Option (List Json × List Char)
  | 0, _ => none
  | fuel + 1, cs => do
      let (item, rest) ← readValue fuel cs
      match skipBlanks rest with
      | ',' :: rest =>
          let (items, rest) ← readItems fuel rest
          some (item :: items, rest)
      | ']' :: rest => some ([item], rest)
      | _ => none

/-- One field or more, up to and including the closing brace. -/
def readFields : Nat → List Char → Option (List (Literal × Json) × List Char)
  | 0, _ => none
  | fuel + 1, cs =>
      match skipBlanks cs with
      | '"' :: rest => do
          let (key, rest) ← readLiteral rest
          match skipBlanks rest with
          | ':' :: rest =>
              let (value, rest) ← readValue fuel rest
              match skipBlanks rest with
              | ',' :: rest =>
                  let (fields, rest) ← readFields fuel rest
                  some ((key, value) :: fields, rest)
              | '\x7d' :: rest => some ([(key, value)], rest)
              | _ => none
          | _ => none
      | _ => none

end

/-- The value that a text holds. -/
def parse? (s : String) : Option Json :=
  let cs := s.toList
  match readValue (2 * cs.length + 1) cs with
  | some (v, rest) => if (skipBlanks rest).isEmpty then some v else none
  | none => none

end ClipEdit.Json
