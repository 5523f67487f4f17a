import ClipEdit.Json.Basic

/-!
# Printing JSON

Two layouts of the same value: `compact`, on one line and without blanks, and `pretty`, which puts
every item and every field on a line of its own, indented by two blanks per level, and writes an
empty array or object without a line break.

Inside a string literal only the quotation mark, the backslash and the control characters below
U+0020 are escaped; everything else is written as it is.
-/

namespace ClipEdit.Json

/-- A hexadecimal digit, in lower case. -/
def hexDigit (n : Nat) : Char :=
  if n < 10 then Char.ofNat (48 + n) else Char.ofNat (87 + n)

/-- One character inside a string literal. -/
def escapeChar (c : Char) : List Char :=
  if c = '"' then ['\\', '"']
  else if c = '\\' then ['\\', '\\']
  else if c = '\x08' then ['\\', 'b']
  else if c = '\t' then ['\\', 't']
  else if c = '\n' then ['\\', 'n']
  else if c = '\x0c' then ['\\', 'f']
  else if c = '\r' then ['\\', 'r']
  else if c.toNat < 32 then ['\\', 'u', '0', '0', hexDigit (c.toNat / 16), hexDigit (c.toNat % 16)]
  else [c]

/-- A string literal with its quotation marks. A literal that denotes no text is written as an
unpaired surrogate again. -/
def literalText : Literal → List Char
  | some s => '"' :: s.toList.flatMap escapeChar ++ ['"']
  | none => ['"', '\\', 'u', 'd', '8', '0', '0', '"']

/-- A line break followed by the indentation of a level. -/
def lineBreak (level : Nat) : List Char :=
  '\n' :: List.replicate (2 * level) ' '

mutual

/-- The compact layout. -/
def compactText : Json → List Char
  | null => ['n', 'u', 'l', 'l']
  | bool true => ['t', 'r', 'u', 'e']
  | bool false => ['f', 'a', 'l', 's', 'e']
  | number n => n.text
  | string s => literalText s
  | array [] => ['[', ']']
  | array (item :: items) => '[' :: compactText item ++ compactItems items
  | object [] => ['\x7b', '\x7d']
  | object ((key, value) :: fields) =>
      '\x7b' :: literalText key ++ ':' :: compactText value ++ compactFields fields

/-- The rest of an array, from behind its first item. -/
def compactItems : List Json → List Char
  | [] => [']']
  | item :: items => ',' :: compactText item ++ compactItems items

/-- The rest of an object, from behind its first field. -/
def compactFields : List (Literal × Json) → List Char
  | [] => ['\x7d']
  | (key, value) :: fields =>
      ',' :: literalText key ++ ':' :: compactText value ++ compactFields fields

end

mutual

/-- The pretty layout of a value that stands at `level`. -/
def prettyText (level : Nat) : Json → List Char
  | null => ['n', 'u', 'l', 'l']
  | bool true => ['t', 'r', 'u', 'e']
  | bool false => ['f', 'a', 'l', 's', 'e']
  | number n => n.text
  | string s => literalText s
  | array [] => ['[', ']']
  | array (item :: items) =>
      '[' :: lineBreak (level + 1) ++ prettyText (level + 1) item ++ prettyItems level items
  | object [] => ['\x7b', '\x7d']
  | object ((key, value) :: fields) =>
      '\x7b' :: lineBreak (level + 1) ++ literalText key ++ ':' :: ' ' ::
        prettyText (level + 1) value ++ prettyFields level fields

/-- The rest of an array, from behind its first item. -/
def prettyItems (level : Nat) : List Json → List Char
  | [] => lineBreak level ++ [']']
  | item :: items =>
      ',' :: lineBreak (level + 1) ++ prettyText (level + 1) item ++ prettyItems level items

/-- The rest of an object, from behind its first field. -/
def prettyFields (level : Nat) : List (Literal × Json) → List Char
  | [] => lineBreak level ++ ['\x7d']
  | (key, value) :: fields =>
      ',' :: lineBreak (level + 1) ++ literalText key ++ ':' :: ' ' ::
        prettyText (level + 1) value ++ prettyFields level fields

end

/-- The value on one line. -/
def compact (v : Json) : String :=
  String.ofList (compactText v)

/-- The value on indented lines. -/
def pretty (v : Json) : String :=
  String.ofList (prettyText 0 v)

end ClipEdit.Json
