import GamePak.Value.Reader

/-!
Shapes: what a reader expects. A shape says of every part of a value which kind it is and how large
it may be, so that the bytes of the value can be read without looking at anything else.
-/

namespace GamePak

inductive Shape where
  /-- A natural number that fits so many bytes. -/
  | natural (size : Nat)
  /-- A signed number that fits so many bytes. -/
  | signed (size : Nat)
  | flag
  | text
  | unit
  /-- The name of one of several alternatives. -/
  | name (alternatives : List String)
  /-- A value that may be absent. -/
  | optional (s : Shape)
  | list (item : Shape)
  | vector (length : Nat) (item : Shape)
  | record (fields : List (String × Shape))
  /-- A value of one of several kinds, under its tag. -/
  | tagged (kinds : List (String × Shape))

namespace Shape

/-- What stands for a value that was not written. -/
def missing? : Shape → Option Value
  | optional _ => some .absent
  | _ => none

mutual

/-- Takes a value of this shape off the front of a byte string. -/
def read : Shape → Reader Value
  | natural size => do return .int (← Reader.integer size 0 (Atom.capacity size))
  | signed size => do
    let half : Int := Atom.capacity size / 2
    return .int (← Reader.integer size (-half) half)
  | flag => do return .flag (← Reader.flag)
  | text => do return .text (← Reader.text)
  | unit => do
    if (← Reader.next) = .unit then return .unit else Reader.malformed
  | name alternatives => do return .name (← Reader.name alternatives)
  | optional s => do
    if (← Reader.peek) = .absent then
      discard Reader.next
      return .absent
    else s.read
  | list item => Reader.list item.read
  | vector length item => Reader.vector length item.read
  | record fields => Reader.record (readFields fields)
  | tagged kinds => Reader.tagged (readFields kinds)

def readFields : List (String × Shape) → List Reader.Field
  | [] => []
  | (key, s) :: rest => { name := key, read := s.read, missing? := s.missing? } :: readFields rest

end

end Shape

end GamePak
