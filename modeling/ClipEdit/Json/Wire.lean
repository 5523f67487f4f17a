import ClipEdit.Json.Printer
import ClipEdit.Json.Reader

/-!
# Types with a JSON form

A type with a JSON form is an instance of `Wire`: it can be encoded, and a value can be decoded as
the type or refused with a cause (`Json.Fault`).

The rules that all decoders share are stated here once:

* a record is an object or an array. In an object the order of the fields is free, fields nobody
  knows are skipped unread and a known field may occur only once; in an array the fields stand in
  their declared order and there are no further items (`record`);
* a name from a fixed list is a string, or an object whose only field has that name as its key and
  `null` as its value (`nameOf`);
* a scalar is any number in range, a count only a number written without fraction and exponent.

`Json.decodeText` reads a text as a type.
-/

namespace ClipEdit

/-- Why a JSON text cannot be read as the type that was asked for. -/
inductive Json.Fault where
  | malformed
  | wrongKind (wanted : String)
  | missingField (name : String)
  | duplicateField (name : String)
  | unknownName (name : String)
  | tooManyItems
  | unreadableText
  | outOfRange
  | unreadableContent
deriving Repr, DecidableEq

/-- One line that names the cause. -/
def Json.Fault.message : Json.Fault → String
  | .malformed => "not a JSON text"
  | .wrongKind wanted => "expected " ++ wanted
  | .missingField name => "missing field " ++ name
  | .duplicateField name => "duplicate field " ++ name
  | .unknownName name => "unknown name " ++ name
  | .tooManyItems => "too many items"
  | .unreadableText => "unpaired surrogate in a string"
  | .outOfRange => "number out of range"
  | .unreadableContent => "content cannot be read before its kind is known"

/-- A type with a JSON form. -/
class Wire (τ : Type) where
  encode : τ → Json
  decode : Json → Except Json.Fault τ

namespace Json

export Wire (encode decode)

/-! ### Reading a text as a type -/

/-- The value of type `τ` that a text holds. -/
def decodeText (τ : Type) [Wire τ] (s : String) : Except Fault τ :=
  match parse? s with
  | none => .error .malformed
  | some v => decode v

/-! ### Records -/

/-- The text of a literal that is read. -/
def readable : Literal → Except Fault String
  | some s => .ok s
  | none => .error .unreadableText

/-- The fields of an object whose keys are all readable. -/
def readableFields (fields : List (Literal × Json)) : Except Fault (List (String × Json)) :=
  fields.mapM fun (key, value) => do
    let key ← readable key
    return (key, value)

/-- The first name that occurs again behind itself. -/
def firstRepeated? : List String → Option String
  | [] => none
  | name :: rest => if rest.contains name then some name else firstRepeated? rest

/-- The fields of a record that are known, each at most once. -/
structure Record where
  fields : List (String × Json)

/-- The known fields of an object, or the items of an array taken for the fields in order. -/
def record (names : List String) : Json → Except Fault Record
  | object fields => do
      let fields ← readableFields fields
      let known := fields.filter fun field => names.contains field.1
      match firstRepeated? (known.map Prod.fst) with
      | some name => .error (.duplicateField name)
      | none => .ok ⟨known⟩
  | array items =>
      if names.length < items.length then .error .tooManyItems
      else .ok ⟨names.zip items⟩
  | _ => .error (.wrongKind "a record")

namespace Record

/-- Decode a field that must be there. -/
def getWith {τ : Type} (r : Record) (decode : Json → Except Fault τ) (name : String) :
    Except Fault τ :=
  match r.fields.lookup name with
  | some v => decode v
  | none => .error (.missingField name)

/-- The value of a field that must be there. -/
def get {τ : Type} [Wire τ] (r : Record) (name : String) : Except Fault τ :=
  r.getWith Wire.decode name

/-- The value of a field, or a fallback when it is left out. -/
def getD {τ : Type} [Wire τ] (r : Record) (name : String) (fallback : τ) : Except Fault τ :=
  match r.fields.lookup name with
  | some v => Wire.decode v
  | none => .ok fallback

end Record

/-! ### Names -/

/-- The entry of a table of names. -/
def lookupName {τ : Type} (table : List (String × τ)) (name : String) : Except Fault τ :=
  match table.lookup name with
  | some x => .ok x
  | none => .error (.unknownName name)

/-- The entry that a string names. -/
def nameOfString {τ : Type} (table : List (String × τ)) : Json → Except Fault τ
  | string s => readable s >>= lookupName table
  | _ => .error (.wrongKind "a name")

/-- The entry that a string, or the only key of an object with the value `null`, names. -/
def nameOf {τ : Type} (table : List (String × τ)) : Json → Except Fault τ
  | object [(key, null)] => readable key >>= lookupName table
  | v => nameOfString table v

/-! ### Scalars, counts, flags, texts and lists -/

/-- A count that does not exceed `limit`. -/
def countUpTo (limit : Nat) : Json → Except Fault Nat
  | number n =>
      match n.toNat? with
      | some k => if k ≤ limit then .ok k else .error .outOfRange
      | none => .error (.wrongKind "a count")
  | _ => .error (.wrongKind "a count")

instance : Wire Float where
  encode := float
  decode
    | number n =>
        match n.toFloat? with
        | some x => .ok x
        | none => .error .outOfRange
    | _ => .error (.wrongKind "a number")

instance : Wire Bool where
  encode := bool
  decode
    | bool b => .ok b
    | _ => .error (.wrongKind "a flag")

instance : Wire String where
  encode := text
  decode
    | string s => readable s
    | _ => .error (.wrongKind "a text")

instance {τ : Type} [Wire τ] : Wire (List τ) where
  encode items := array (items.map encode)
  decode
    | array items => items.mapM decode
    | _ => .error (.wrongKind "a list")

end Json

end ClipEdit
