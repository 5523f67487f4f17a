import ClipEdit.Fault
import ClipEdit.Text.Blank

/-!
# Aspect ratios

The proportion a crop is locked to, or none. As text an aspect ratio is the word `free`, in any mix
of cases, or two positive whole numbers with a colon between them; blanks around the text and around
the numbers do not matter.

`AspectRatio.parse` is strict and `AspectRatio.parseOrFree` takes anything else for `free`.
-/

namespace ClipEdit

open Decimal (Digit)

/-- The lock on the proportions of a crop. -/
inductive AspectRatio where
  | free
  | fixed (w h : Nat)
deriving Repr, DecidableEq

namespace AspectRatio

/-- The largest number that may stand on either side of the colon. -/
def partLimit : Nat := 4294967295

/-- Width divided by height; nothing when the ratio is free. -/
def value {α : Type} [Scalar α] : AspectRatio → Option α
  | free => none
  | fixed w h => some ((w : α) / (h : α))

/-- Is the ratio not locked? -/
def isFree : AspectRatio → Bool
  | free => true
  | fixed _ _ => false

/-- The ratio as text. -/
def text : AspectRatio → String
  | free => "free"
  | fixed w h => Decimal.natText w ++ ":" ++ Decimal.natText h

/-- The lower case of an ASCII letter; any other character stays as it is. -/
def lowerAscii (c : Char) : Char :=
  if 'A' ≤ c ∧ c ≤ 'Z' then Char.ofNat (c.toNat + 32) else c

/-- A whole number of ASCII digits within the limit, possibly after a plus sign. -/
def parsePart (cs : List Char) : Option Nat :=
  let ds := match cs with
    | '+' :: rest => rest
    | _ => cs
  if ds.isEmpty then none
  else match ds.mapM Digit.ofChar? with
    | none => none
    | some digits =>
        let n := Decimal.value digits
        if n ≤ partLimit then some n else none

/-- The text before the first colon and the text behind it. -/
def splitColon : List Char → Option (List Char × List Char)
  | [] => none
  | c :: cs =>
      if c = ':' then some ([], cs)
      else (splitColon cs).map fun (before, behind) => (c :: before, behind)

/-- The ratio that a text without blanks around it names. -/
def parseTrimmed (cs : List Char) : Option AspectRatio :=
  if cs.map lowerAscii = ['f', 'r', 'e', 'e'] then some free
  else do
    let (before, behind) ← splitColon cs
    let w ← parsePart (Text.trim before)
    let h ← parsePart (Text.trim behind)
    if w = 0 ∨ h = 0 then none else some (fixed w h)

/-- The ratio that a text names. The fault carries the text as it was given. -/
def parse (s : String) : Except Fault AspectRatio :=
  match parseTrimmed (Text.trim s.toList) with
  | some r => .ok r
  | none => .error (.aspectRatio s)

/-- The ratio that a text names, and `free` for any text that names none. -/
def parseOrFree (s : String) : AspectRatio :=
  match parse s with
  | .ok r => r
  | .error _ => free

end AspectRatio

end ClipEdit
