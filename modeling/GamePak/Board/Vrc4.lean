import GamePak.Board.RegisterFile
import GamePak.Board.Reply
import GamePak.Timer
import GamePak.Word

/-!
The Konami VRC2 and VRC4. The chips have four registers in each 4 KiB block of program memory;
which address lines tell them apart depends on how the board is wired, and the mapper number
stands for the wiring. Pattern banks are written in two parts. Boards without a timer read
the mirroring register where the others have the swap mode.
-/

namespace GamePak

structure Vrc4 where
  /-- The wiring of the register address lines. -/
  mapper : UInt16
  prgSelect : UInt8 := 0
  /-- Pattern bank of each page: four low bits, then five high ones. -/
  chrSelects : RegisterFile UInt16 := Vector.replicate 8 0
  /-- The switched and the fixed program page have changed places. -/
  swapped : Bool := false
  /-- A one-bit memory in place of work RAM. -/
  latch : Option Bool
  timer : Option Timer
  deriving DecidableEq

namespace Vrc4

def name : String := "VRC2/VRC4"

/-- Part names that this chip goes by; both take the wiring of mapper 23. -/
def boards : List String := ["KONAMI-VRC-4", "KONAMI-VRC-2"]

def mappers : List UInt16 := [21, 22, 23, 25]

def layout : Layout := .even 4 8

/-- The wiring of a cartridge, if it is one of these. -/
def wiring? (d : Descriptor) : Option UInt16 :=
  if d.isAnyOf boards then some 23 else d.mapper?.filter mappers.contains

def prgSelects (r : Vrc4) : List Select :=
  if r.swapped then [.prg 2 r.prgSelect.toNat, .prgFromEnd 0 1]
  else [.prg 0 r.prgSelect.toNat, .prgFromEnd 2 1]

/-- The pattern bank of a page; the wiring of mapper 22 leaves the lowest line out. -/
def chrBank (r : Vrc4) (page : Nat) : Nat :=
  let bank := (r.chrSelects.read page).toNat
  if r.mapper = 22 then bank / 2 else bank

def chrSelect (r : Vrc4) (page : Nat) : Select := .chr page (r.chrBank page)

/-- Every selection that the registers ask for. -/
def selects (r : Vrc4) : List Select :=
  r.prgSelects ++ (List.range 8).map r.chrSelect

def start? (d : Descriptor) : Option (Reply Vrc4) := do
  let mapper ← wiring? d
  if 0x8000 ≤ d.prgSize ∧ d.prgSize ≤ 0x40000 ∧ d.patternSize ≤ 0x80000 then
    let r : Vrc4 := {
      mapper
      latch := if mapper = 22 ∨ d.wramSize = 0 then some false else none
      timer := if mapper = 22 then none else some { counter := .up8, ack := .registerWrite } }
    some { registers := r, selects := .prgFromEnd 3 0 :: r.prgSelects }
  else none

/-- The two register lines of an address, low line first. -/
def lines (mapper : UInt16) (addr : Nat) : Bool × Bool :=
  if mapper = 21 then (addr.testBit 1 || addr.testBit 6, addr.testBit 2 || addr.testBit 7)
  else if mapper = 22 then (addr.testBit 1, addr.testBit 0)
  else if mapper = 23 then (addr.testBit 0 || addr.testBit 2, addr.testBit 1 || addr.testBit 3)
  else (addr.testBit 1 || addr.testBit 3, addr.testBit 0 || addr.testBit 2)

/-- The register, 0 to 3, that an address reaches within its block. -/
def register (r : Vrc4) (addr : Nat) : Nat :=
  let (a0, a1) := lines r.mapper addr
  a0.toNat + 2 * a1.toNat

/-- Replaces the four low bits of a pattern bank. -/
def setBankLow (bank : UInt16) (value : UInt8) : UInt16 :=
  bank / 16 * 16 + value.toUInt16 % 16

/-- Replaces the five bits above them. -/
def setBankHigh (bank : UInt16) (value : UInt8) : UInt16 :=
  bank / 512 * 512 + value.toUInt16 % 32 * 16 + bank % 16

/-- Pattern registers: a page has two of them, low bits first. -/
def writeChr (r : Vrc4) (page : Nat) (high : Bool) (value : UInt8) : Reply Vrc4 :=
  let bank := r.chrSelects.read page
  let bank := if high then setBankHigh bank value else setBankLow bank value
  let r := { r with chrSelects := r.chrSelects.write page bank }
  { registers := r, selects := [r.chrSelect page] }

/-- Timer registers: two latch nibbles, control, acknowledge. -/
def writeTimer (t : Timer) (register : Nat) (value : UInt8) : Timer :=
  match register with
  | 0 => { t with latch := Word.setNibble (t.latch % 256) 0 value }
  | 1 => { t with latch := Word.setNibble (t.latch % 256) 1 value }
  | 2 =>
    let control := Timer.Control.ofByte value
    { t.writeControl control with mode := if control.mode then .cycle else .scanline }
  | _ => t.writeAck

def write (r : Vrc4) (addr : Nat) (value : UInt8) : Reply Vrc4 :=
  let v := value.toNat
  if addr < 0x6000 then { registers := r }
  else if addr < 0x8000 then
    { registers := { r with latch := r.latch.map fun _ => v.testBit 0 } }
  else
    let register := r.register addr
    if addr < 0x9000 then
      let r := { r with prgSelect := value % 32 }
      { registers := r, selects := r.prgSelects }
    else if addr < 0xA000 then
      if register = 2 ∧ r.timer.isSome then
        let r := { r with swapped := v.testBit 1 }
        { registers := r, selects := r.prgSelects }
      else { registers := r, selects := [.mirroring (.ofRegister value)] }
    else if addr < 0xB000 then { registers := r, selects := [.prg 1 (v % 32)] }
    else if addr < 0xF000 then
      let page := 2 * (addr / 0x1000 - 0xB) + register / 2
      r.writeChr page (register % 2 = 1) value
    else { registers := { r with timer := r.timer.map (writeTimer · register value) } }

/-- What the CPU reads from the one-bit memory. -/
def readLatch (r : Vrc4) : UInt8 := if r.latch.getD false then 1 else 0

def workArea (r : Vrc4) : WorkArea := if r.latch.isSome then .register else .ram

end Vrc4

end GamePak
