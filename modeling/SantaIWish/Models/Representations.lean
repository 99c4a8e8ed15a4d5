import SantaIWish.Foundation.Base64
import SantaIWish.Foundation.Json

/-!
# The `Codable` representations

The encoders are the ones the compiler synthesises: property names as keys. So
are the decoders, but for `ChildRepresentation`, whose `init(from:)` is written
by hand and reads letters and items as dictionaries.
-/

namespace SantaIWish
set_option autoImplicit false

abbrev Data : Type := List UInt8

def Decoder.data : Decoder Data
  | .str s =>
    match Base64.decode s with
    | some bytes => .ok bytes
    | none => .error .dataCorrupted
  | .null => .error .valueNotFound
  | _ => .error .typeMismatch

def encodeData (bytes : Data) : Json := .str (Base64.encode bytes)

@[simp] theorem data_encodeData (bytes : Data) : Decoder.data (encodeData bytes) = .ok bytes := by
  simp [Decoder.data, encodeData, Base64.decode_encode]

structure LetterRepresentation where
  note : String
  title : String
  deriving DecidableEq, Repr

structure ItemRepresentation where
  childNote : String
  name : String
  image : Data
  deriving DecidableEq, Repr

structure ChildRepresentation where
  name : String
  age : String
  letters : List LetterRepresentation
  items : List ItemRepresentation
  deriving DecidableEq, Repr

structure ParentRepresentation where
  name : String
  children : Option (List ChildRepresentation)
  deriving DecidableEq, Repr

namespace LetterRepresentation

def encode (l : LetterRepresentation) : Json := .obj [("note", .str l.note), ("title", .str l.title)]

def decoder : Decoder LetterRepresentation := fun j => do
  let container ← Decoder.container j
  let note ← Decoder.forKey Decoder.string "note" container
  let title ← Decoder.forKey Decoder.string "title" container
  return ⟨note, title⟩

end LetterRepresentation

namespace ItemRepresentation

def encode (i : ItemRepresentation) : Json :=
  .obj [("childNote", .str i.childNote), ("name", .str i.name), ("image", encodeData i.image)]

def decoder : Decoder ItemRepresentation := fun j => do
  let container ← Decoder.container j
  let childNote ← Decoder.forKey Decoder.string "childNote" container
  let name ← Decoder.forKey Decoder.string "name" container
  let image ← Decoder.forKey Decoder.data "image" container
  return ⟨childNote, name, image⟩

end ItemRepresentation

namespace ChildRepresentation

def encode (c : ChildRepresentation) : Json :=
  .obj [("name", .str c.name), ("age", .str c.age),
    ("letters", .arr (c.letters.map LetterRepresentation.encode)),
    ("items", .arr (c.items.map ItemRepresentation.encode))]

/-- `init(from:)`: letters and items are read from dictionaries, whose keys are dropped. -/
def decoder : Decoder ChildRepresentation := fun j => do
  let container ← Decoder.container j
  let name ← Decoder.forKey Decoder.string "name" container
  let age ← Decoder.forKey Decoder.string "age" container
  let letters ← Decoder.forKeyIfPresent (Decoder.dictionary LetterRepresentation.decoder)
    "letters" container
  let items ← Decoder.forKeyIfPresent (Decoder.dictionary ItemRepresentation.decoder)
    "items" container
  return ⟨name, age, (letters.map fun d => d.map Prod.snd).getD [],
    (items.map fun d => d.map Prod.snd).getD []⟩

end ChildRepresentation

namespace ParentRepresentation

/-- An optional property that is nil is left out of the object. -/
def encode (p : ParentRepresentation) : Json :=
  .obj (("name", .str p.name) :: match p.children with
    | some children => [("children", .arr (children.map ChildRepresentation.encode))]
    | none => [])

def decoder : Decoder ParentRepresentation := fun j => do
  let container ← Decoder.container j
  let name ← Decoder.forKey Decoder.string "name" container
  let children ← Decoder.forKeyIfPresent (Decoder.array ChildRepresentation.decoder)
    "children" container
  return ⟨name, children⟩

end ParentRepresentation

@[simp] theorem decode_encode_letter (l : LetterRepresentation) :
    LetterRepresentation.decoder l.encode = .ok l := rfl

@[simp] theorem decode_encode_item (i : ItemRepresentation) :
    ItemRepresentation.decoder i.encode = .ok i := by
  have hread : ItemRepresentation.decoder i.encode =
      (Decoder.data (encodeData i.image)).map fun image => ⟨i.childNote, i.name, image⟩ := rfl
  rw [hread, data_encodeData]
  rfl

/-- A node that has the two texts and none of the two dictionaries. -/
theorem decode_child_of_fields {j : Json} {name age : String}
    (hname : j.field "name" = .str name) (hage : j.field "age" = .str age)
    (hletters : j.field "letters" = .null) (hitems : j.field "items" = .null) :
    ChildRepresentation.decoder j = .ok ⟨name, age, [], []⟩ := by
  cases j with
  | obj fs =>
    have h₁ : Decoder.forKey Decoder.string "name" fs = .ok name :=
      Decoder.forKey_of_field hname (by simp)
    have h₂ : Decoder.forKey Decoder.string "age" fs = .ok age :=
      Decoder.forKey_of_field hage (by simp)
    have h₃ : Decoder.forKeyIfPresent (Decoder.dictionary LetterRepresentation.decoder) "letters" fs =
        .ok none := Decoder.forKeyIfPresent_of_field_null hletters
    have h₄ : Decoder.forKeyIfPresent (Decoder.dictionary ItemRepresentation.decoder) "items" fs =
        .ok none := Decoder.forKeyIfPresent_of_field_null hitems
    simp [ChildRepresentation.decoder, Decoder.container, h₁, h₂, h₃, h₄, bind, Except.bind, pure,
      Except.pure]
  | null => simp at hname
  | scalar v => simp [Json.field, Json.fields] at hname
  | arr xs => simp [Json.field, Json.fields] at hname

end SantaIWish
