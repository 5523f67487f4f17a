import ClipEdit.Json.Number

/-!
# JSON values

A JSON text as data. Numbers stay as written (`Json.Number`), and so does the order of the fields
of an object; a field may occur twice.

A string literal can be well formed and still denote no text, when its escapes name a surrogate
without its partner. Such a literal is harmless where nobody reads it, so it is kept as `none`.
-/

namespace ClipEdit

/-- The text of a string literal, `none` when the literal names an unpaired surrogate. -/
abbrev Json.Literal := Option String

/-- A JSON value. -/
inductive Json where
  | null
  | bool (b : Bool)
  | number (n : Json.Number)
  | string (s : Json.Literal)
  | array (items : List Json)
  | object (fields : List (Json.Literal × Json))
deriving Repr, Inhabited

namespace Json

/-- A string value. -/
def text (s : String) : Json :=
  string (some s)

/-- A count. -/
def count (n : Nat) : Json :=
  number (.ofNat n)

/-- A binary64 number; what is not finite becomes `null`. -/
def float (x : Float) : Json :=
  match Number.ofFloat? x with
  | some n => number n
  | none => null

/-- An object, its fields in the given order. -/
def ofFields (fields : List (String × Json)) : Json :=
  object (fields.map fun (key, value) => (some key, value))

mutual

/-- Can the whole value be read into memory: every literal denotes text, every number is in range,
and arrays and objects are nested at most `depth` deep? -/
def isReadable (depth : Nat) : Json → Bool
  | null => true
  | bool _ => true
  | number n => n.toFloat?.isSome
  | string s => s.isSome
  | array items => match depth with
      | 0 => false
      | d + 1 => areReadable d items
  | object fields => match depth with
      | 0 => false
      | d + 1 => fieldsReadable d fields

/-- `isReadable` for every item of an array. -/
def areReadable (depth : Nat) : List Json → Bool
  | [] => true
  | item :: items => isReadable depth item && areReadable depth items

/-- `isReadable` for every field of an object, its key included. -/
def fieldsReadable (depth : Nat) : List (Literal × Json) → Bool
  | [] => true
  | (key, value) :: fields =>
      key.isSome && isReadable depth value && fieldsReadable depth fields

end

end Json

end ClipEdit
