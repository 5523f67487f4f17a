import ClipEdit.Json.Wire
import ClipEdit.Overlay.Crop
import ClipEdit.Overlay.Handle
import ClipEdit.Overlay.Highlight
import ClipEdit.Track.Clipboard

/-!
# JSON forms of overlays

Crops, highlights, handles, keyframes and clippings as they travel between the editor and its host.
A clipping names its kind beside its value, in either order. When the value comes first it has to be
kept until the kind is known; such a value must be readable as a whole, and its arrays and objects
must not be nested too deeply (`Json.contentDepth`).
-/

namespace ClipEdit

open Json

instance : Wire (Crop Float) where
  encode c :=
    ofFields [("x", encode c.x), ("y", encode c.y), ("width", encode c.width),
      ("height", encode c.height)]
  decode v := do
    let r ← record ["x", "y", "width", "height"] v
    return ⟨← r.get "x", ← r.get "y", ← r.get "width", ← r.get "height"⟩

instance : Wire (Highlight Float) where
  encode h :=
    ofFields [("x", encode h.x), ("y", encode h.y), ("radiusX", encode h.radiusX),
      ("radiusY", encode h.radiusY), ("opacity", encode h.opacity), ("color", encode h.color)]
  decode v := do
    let r ← record ["x", "y", "radiusX", "radiusY", "opacity", "color"] v
    return ⟨← r.get "x", ← r.get "y", ← r.get "radiusX", ← r.get "radiusY", ← r.get "opacity",
      ← r.get "color"⟩

/-! ### Handles -/

/-- The name of a crop handle. -/
def EdgeHandle.label : EdgeHandle → String
  | n => "n"
  | ne => "ne"
  | e => "e"
  | se => "se"
  | s => "s"
  | sw => "sw"
  | w => "w"
  | nw => "nw"

instance : Wire EdgeHandle where
  encode h := text h.label
  decode := nameOf (EdgeHandle.all.map fun h => (h.label, h))

/-- The name of a highlight handle. -/
def RadiusHandle.label : RadiusHandle → String
  | radiusX => "radiusX"
  | radiusY => "radiusY"

instance : Wire RadiusHandle where
  encode h := text h.label
  decode := nameOf ([.radiusX, .radiusY].map fun h => (RadiusHandle.label h, h))

/-! ### Keyframes -/

/-- The name of an origin. -/
def KeyframeOrigin.label : KeyframeOrigin → String
  | permanent => "permanent"
  | user => "user"

instance : Wire KeyframeOrigin where
  encode o := text o.label
  decode := nameOf ([.permanent, .user].map fun o => (KeyframeOrigin.label o, o))

/-- The name of an end mode. -/
def EndMode.label : EndMode → String
  | implicit => "implicit"
  | explicit => "explicit"

instance : Wire EndMode where
  encode m := text m.label
  decode := nameOf ([.implicit, .explicit].map fun m => (EndMode.label m, m))

instance {V : Type} [Wire V] : Wire (Keyframe V) where
  encode k :=
    ofFields [("frame", count k.frame), ("value", encode k.value), ("origin", encode k.origin)]
  decode v := do
    let r ← record ["frame", "value", "origin"] v
    return ⟨← r.getWith (countUpTo Frame.limit) "frame", ← r.get "value", ← r.get "origin"⟩

/-! ### Clippings -/

/-- The kinds of clippings. -/
inductive ClippingKind where
  | crop
  | highlight
deriving Repr, DecidableEq

namespace ClippingKind

/-- The name of a kind. -/
def label : ClippingKind → String
  | crop => "crop"
  | highlight => "highlight"

/-- The kinds by name. -/
def table : List (String × ClippingKind) := [crop, highlight].map fun k => (k.label, k)

/-- The clipping of a kind that a value holds. -/
def decodeValue : ClippingKind → Json → Except Json.Fault (Clipping Float)
  | crop, v => Clipping.crop <$> decode v
  | highlight, v => Clipping.highlight <$> decode v

end ClippingKind

/-- How deeply a value may be nested that comes before its kind. -/
def Json.contentDepth : Nat := 126

/-- A clipping from its fields, those with other names left out. -/
def Clipping.ofFields : List (String × Json) → Except Json.Fault (Clipping Float)
  | [("kind", kind), ("value", value)] => do
      let kind ← nameOf ClippingKind.table kind
      kind.decodeValue value
  | [("value", value), ("kind", kind)] =>
      if value.isReadable contentDepth then do
        let kind ← nameOf ClippingKind.table kind
        kind.decodeValue value
      else .error .unreadableContent
  | fields =>
      match firstRepeated? (fields.map Prod.fst) with
      | some name => .error (.duplicateField name)
      | none => .error (.missingField "kind and value")

instance : Wire (Clipping Float) where
  encode
    | .crop c => ofFields [("kind", text "crop"), ("value", encode c)]
    | .highlight h => ofFields [("kind", text "highlight"), ("value", encode h)]
  decode
    | object fields => do
        let fields ← readableFields fields
        Clipping.ofFields (fields.filter fun field => field.1 == "kind" || field.1 == "value")
    | array [kind, value] => do
        let kind ← nameOfString ClippingKind.table kind
        kind.decodeValue value
    | _ => .error (.wrongKind "a clipping")

end ClipEdit
