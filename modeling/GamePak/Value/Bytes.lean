import GamePak.Value.Shape

/-!
Values as byte strings. A byte string is a signature, the version of the format and the atoms of one
value; an atom that stands for a list or a map is followed by the atoms of its contents.
-/

namespace GamePak

namespace Value

mutual

/-- The atoms of a value, pushed in front of those before it, the last one first. Field names and
the names of alternatives are spelled as told. -/
def pushAtoms (spell : String → Atom) (before : List Atom) : Value → List Atom
  | absent => .absent :: before
  | unit => .unit :: before
  | flag b => .flag b :: before
  | int n => .ofInt n :: before
  | text s => .ofText s :: before
  | name s => spell s :: .named :: before
  | list items => pushItems spell (.list items.length :: before) items
  | tagged tag v => pushAtoms spell (.ofText tag :: .map 1 :: before) v
  | record fields => pushFields spell (.map fields.length :: before) fields

def pushItems (spell : String → Atom) (before : List Atom) : List Value → List Atom
  | [] => before
  | v :: rest => pushItems spell (pushAtoms spell before v) rest

def pushFields (spell : String → Atom) (before : List Atom) : List (String × Value) → List Atom
  | [] => before
  | (key, v) :: rest => pushFields spell (pushAtoms spell (spell key :: before) v) rest

end

/-- The letters that every byte string begins with. -/
def signature : List UInt8 := [0x50, 0x6F, 0x74]

/-- The highest version of the format that is read. Version 0 is written. -/
def highestVersion : UInt8 := 1

def encode (spell : String → Atom) (v : Value) : List UInt8 :=
  signature ++ 0 :: (pushAtoms spell [] v).foldl (fun bytes a => a.write ++ bytes) []

/-- The bits of the signature are all set in the first bytes; further bits may be set there too. -/
def hasSignature (bytes : List UInt8) : Bool :=
  signature.length ≤ bytes.length && (signature.zip bytes).all fun (s, b) => s &&& b == s

/-- The value of a given shape in a byte string, with nothing after it. -/
def decode (shape : Shape) (bytes : List UInt8) : Except ReadError Value :=
  if hasSignature bytes ∧ (bytes.drop 3).headD 0 ≤ highestVersion then
    match shape.read { bytes := bytes.drop 4, symbols := #[] } with
    | .error e => .error e
    | .ok (v, src) => if src.bytes.isEmpty then .ok v else .error .malformed
  else .error .malformed

end Value

end GamePak
