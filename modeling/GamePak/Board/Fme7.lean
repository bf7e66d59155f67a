import GamePak.Board.Reply
import GamePak.Timer
import GamePak.Word

/-!
The Sunsoft FME-7: a command is written, then its parameter. The program window begins at 6000, so
that the first page can show program memory in place of work RAM. The timer counts down and
has a separate output switch.
-/

namespace GamePak

structure Fme7 where
  /-- Only the low four bits say what a parameter does. -/
  command : UInt8 := 0
  /-- The page at 6000 shows work RAM. -/
  wramBanked : Bool := false
  wramEnabled : Bool := false
  timer : Timer := { counter := .down16, ack := .registerWrite, output := false }
  deriving DecidableEq

namespace Fme7

def name : String := "Sunsoft FME-7"

def boards : List String := ["MAPPER069", "SUNSOFT-FME-7", "SUNSOFT-5A", "SUNSOFT-5B"]

def layout : Layout where
  prgStart := 0x6000
  prgPageSize := 0x2000
  prgPages := 5
  chrPages := 8

def start? (d : Descriptor) : Option (Reply Fme7) :=
  if d.isAnyOf boards ∧ 0x8000 ≤ d.prgSize ∧ d.prgSize ≤ 0x80000 ∧ d.patternSize ≤ 0x40000 then
    some { registers := {}, selects := [.prgFromEnd 4 0] }
  else none

/-- Command 8: what the page at 6000 shows. -/
def writeWorkArea (r : Fme7) (value : UInt8) : Reply Fme7 :=
  let v := value.toNat
  { registers := { r with wramBanked := v.testBit 6, wramEnabled := v.testBit 7 }
    selects := if v.testBit 6 then [.wram (v % 64)] else [.prg 0 (v % 64)] }

/-- Command 13: the timer's switches, which also clear the line. -/
def writeSwitches (r : Fme7) (value : UInt8) : Fme7 :=
  let v := value.toNat
  { r with timer := { r.timer with output := v.testBit 0, enabled := v.testBit 7 }.clear }

def parameter (r : Fme7) (value : UInt8) : Reply Fme7 :=
  match r.command.toNat % 16 with
  | 0x8 => r.writeWorkArea value
  | 0x9 => { registers := r, selects := [.prg 1 (value.toNat % 64)] }
  | 0xA => { registers := r, selects := [.prg 2 (value.toNat % 64)] }
  | 0xB => { registers := r, selects := [.prg 3 (value.toNat % 64)] }
  | 0xC => { registers := r, selects := [.mirroring (.ofRegister value)] }
  | 0xD => { registers := r.writeSwitches value }
  | 0xE => { registers := { r with timer.count := Word.setLow r.timer.count value } }
  | 0xF => { registers := { r with timer.count := Word.setHigh r.timer.count value } }
  | page => { registers := r, selects := [.chr page value.toNat] }

def write (r : Fme7) (addr : Nat) (value : UInt8) : Reply Fme7 :=
  if addr < 0x8000 then { registers := r }
  else if addr < 0xA000 then { registers := { r with command := value % 16 } }
  else if addr < 0xC000 then r.parameter value
  else { registers := r }

def workArea (r : Fme7) : WorkArea :=
  if !r.wramBanked then .rom
  else if r.wramEnabled then .ram
  else .closed

end Fme7

end GamePak
