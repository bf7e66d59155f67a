import GamePak.Snapshot.Record
import GamePak.Value.Bytes

/-!
Snapshots as byte strings, the form in which they are kept and exchanged.
-/

namespace GamePak

def Snapshot.encode (s : Snapshot) : List UInt8 := s.toValue.encode Atom.ofSymbol

def Snapshot.decode (bytes : List UInt8) : Except ReadError Snapshot :=
  match Value.decode shape bytes with
  | .error e => .error e
  | .ok v =>
    match ofValue? v with
    | some s => .ok s
    | none => .error .malformed

/-- Restores a written snapshot, and notes how long it was. -/
def Cartridge.restoreBytes (c : Cartridge) (bytes : List UInt8) :
    Except Fault (Noted (Except RestoreError Cartridge)) :=
  match Snapshot.decode bytes with
  | .ok s => do
    let restored ← c.restore s
    match restored.value with
    | .error _ => return restored
    | .ok c' =>
      let note := .restored c'.boardName bytes.length
      return { restored with notes := restored.notes ++ [note] }
  | .error .malformed => return { value := .error .malformed }
  | .error (.fault f) => .error f

end GamePak
