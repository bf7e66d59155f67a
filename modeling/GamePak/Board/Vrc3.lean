import GamePak.Board.Reply
import GamePak.Timer
import GamePak.Word

/-!
The Konami VRC3: one switched program page of 16 KiB and a timer whose latch is written a nibble
at a time. A mode bit makes the timer count with its low byte alone.
-/

namespace GamePak

structure Vrc3 where
  timer : Timer := { counter := .up16, ack := .registerWrite }
  deriving DecidableEq

namespace Vrc3

def name : String := "VRC3"

def boards : List String := ["MAPPER073", "KONAMI-VRC-3"]

def layout : Layout := .even 2 1

def start? (d : Descriptor) : Option (Reply Vrc3) :=
  if d.isAnyOf boards ∧ 0x8000 ≤ d.prgSize ∧ d.prgSize ≤ 0x20000 ∧ d.patternSize = 0x2000 then
    some { registers := {}, selects := [.prgFromEnd 1 0] }
  else none

def writeLatch (r : Vrc3) (nibble : Nat) (value : UInt8) : Vrc3 :=
  { r with timer.latch := Word.setNibble r.timer.latch nibble value }

def writeControl (r : Vrc3) (value : UInt8) : Vrc3 :=
  let control := Timer.Control.ofByte value
  let t := r.timer.writeControl control
  { r with timer := { t with counter := if control.mode then .up8Low else .up16 } }

def write (r : Vrc3) (addr : Nat) (value : UInt8) : Reply Vrc3 :=
  if addr < 0x8000 then { registers := r }
  else if addr < 0x9000 then { registers := r.writeLatch 0 value }
  else if addr < 0xA000 then { registers := r.writeLatch 1 value }
  else if addr < 0xB000 then { registers := r.writeLatch 2 value }
  else if addr < 0xC000 then { registers := r.writeLatch 3 value }
  else if addr < 0xD000 then { registers := r.writeControl value }
  else if addr < 0xE000 then { registers := { r with timer := r.timer.writeAck } }
  else if addr < 0xF000 then { registers := r }
  else { registers := r, selects := [.prg 0 (value.toNat % 8)] }

end Vrc3

end GamePak
