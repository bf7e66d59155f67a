import GamePak.Board.Reply

/-!
The Codemasters boards: a switched and a fixed program page of 16 KiB. One variant also wires a
bit that picks the nametable.
-/

namespace GamePak

structure Codemasters where
  /-- The nametable bit is connected. -/
  mirroringControl : Bool
  deriving DecidableEq

namespace Codemasters

def name : String := "Codemasters"

def boards : List String :=
  ["MAPPER071", "CAMERICA-BF9093", "CAMERICA-BF9097", "CAMERICA-ALGN"]

def layout : Layout := .even 2 1

def start? (d : Descriptor) : Option (Reply Codemasters) :=
  if d.isAnyOf boards ∧ 0x10000 ≤ d.prgSize ∧ d.prgSize ≤ 0x40000 ∧ d.patternSize = 0x2000 then
    some {
      registers := { mirroringControl := d.board == "CAMERICA-BF9097" || d.submapper == 1 }
      selects := [.prgFromEnd 1 0] }
  else none

def write (r : Codemasters) (addr : Nat) (value : UInt8) : Reply Codemasters :=
  let v := value.toNat
  if addr < 0x8000 then { registers := r }
  else if addr < 0xA000 then
    if r.mirroringControl then
      { registers := r, selects := [.mirroring (.ofScreenBit (v.testBit 4))] }
    else { registers := r }
  else if addr < 0xC000 then { registers := r }
  else { registers := r, selects := [.prg 0 (v % 16)] }

end Codemasters

end GamePak
