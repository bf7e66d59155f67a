import GamePak.Board.RegisterFile
import GamePak.Board.Reply
import GamePak.Timer

/-!
The MMC3. Eight bank registers are written in pairs of writes: one to an even address that names
the register and the modes, one to an odd address with the bank. Its timer counts scanlines
rather than cycles.
-/

namespace GamePak

structure Mmc3 where
  /-- The byte last written to select a register: its number in bits 0 to 2, the program mode in
  bit 6, the pattern mode in bit 7. -/
  select : UInt8 := 0
  banks : RegisterFile UInt8 := #v[0, 2, 4, 5, 6, 7, 0, 1]
  /-- Four screens are wired, so mirroring writes have no effect. -/
  fixedMirroring : Bool
  wramReadable : Bool := true
  wramWritable : Bool := true
  /-- The next scanline reloads the counter. -/
  reload : Bool := false
  timer : Timer := { counter := .down16, ack := .registerWrite }
  deriving DecidableEq

namespace Mmc3

def name : String := "MMC3"

def boards : List String :=
  ["MAPPER004", "NES-TBROM", "NES-TEROM", "NES-TFROM", "NES-TGROM", "NES-TKROM", "NES-TLROM",
    "NES-TL1ROM", "NES-TL2ROM", "NES-TNROM", "NES-TR1ROM", "NES-TSROM", "NES-TVROM", "HVC-TLROM",
    "HVC-TKROM"]

def layout : Layout := .even 4 8

/-- Program mode: the second last bank comes first and register 6 third, in place of the reverse. -/
def prgSwapped (r : Mmc3) : Bool := r.select.toNat.testBit 6

/-- Pattern mode: the small banks come first, in place of the big ones. -/
def chrSwapped (r : Mmc3) : Bool := r.select.toNat.testBit 7

/-- The bank in a register. -/
def bank (r : Mmc3) (n : Nat) : Nat := (r.banks.read n).toNat

def prgSelects (r : Mmc3) : List Select :=
  if r.prgSwapped then [.prgFromEnd 0 1, .prg 2 (r.bank 6), .prg 1 (r.bank 7), .prgFromEnd 3 0]
  else [.prg 0 (r.bank 6), .prgFromEnd 2 1, .prg 1 (r.bank 7), .prgFromEnd 3 0]

def chrSelects (r : Mmc3) : List Select :=
  let big := if r.chrSwapped then 4 else 0
  let small := if r.chrSwapped then 0 else 4
  [.chr big (r.bank 0 / 2 * 2), .chr (big + 1) (r.bank 0 / 2 * 2 + 1),
    .chr (big + 2) (r.bank 1 / 2 * 2), .chr (big + 3) (r.bank 1 / 2 * 2 + 1),
    .chr small (r.bank 2), .chr (small + 1) (r.bank 3),
    .chr (small + 2) (r.bank 4), .chr (small + 3) (r.bank 5)]

/-- Every selection that the registers ask for. -/
def selects (r : Mmc3) : List Select := r.prgSelects ++ r.chrSelects

def start? (d : Descriptor) : Option (Reply Mmc3) :=
  if d.isAnyOf boards ∧ 0x8000 ≤ d.prgSize ∧ d.prgSize ≤ 0x80000 ∧ d.patternSize ≤ 0x40000 then
    let r : Mmc3 := { fixedMirroring := d.mirroring = .fourScreen }
    some { registers := r, selects := r.selects }
  else none

/-- A write to an even address of program memory. -/
def writeEven (r : Mmc3) (addr : Nat) (value : UInt8) : Reply Mmc3 :=
  if addr < 0xA000 then
    let r := { r with select := value }
    { registers := r, selects := r.selects }
  else if addr < 0xC000 then
    if r.fixedMirroring then { registers := r, notes := [.fixedMirroring] }
    else { registers := r, selects := [.mirroring (.ofBit (value.toNat.testBit 0))] }
  else if addr < 0xE000 then { registers := { r with timer.latch := value.toUInt16 } }
  else { registers := { r with timer := { r.timer with enabled := false }.clear } }

/-- A write to an odd address of program memory. -/
def writeOdd (r : Mmc3) (addr : Nat) (value : UInt8) : Reply Mmc3 :=
  if addr < 0xA000 then
    let r := { r with banks := r.banks.write r.select.toNat value }
    { registers := r, selects := r.selects }
  else if addr < 0xC000 then
    { registers := { r with
        wramWritable := !value.toNat.testBit 6
        wramReadable := value.toNat.testBit 7 } }
  else if addr < 0xE000 then { registers := { r with timer.count := 0, reload := true } }
  else { registers := { r with timer.enabled := true } }

def write (r : Mmc3) (addr : Nat) (value : UInt8) : Reply Mmc3 :=
  if addr < 0x8000 then { registers := r }
  else if addr % 2 = 0 then r.writeEven addr value
  else r.writeOdd addr value

/-- One scanline: the counter reloads at zero or on request, else counts down; an enabled
counter that stands at zero raises the line. -/
def scanline (r : Mmc3) : Except Fault Mmc3 := do
  let r ←
    if r.timer.count = 0 ∨ r.reload then
      pure { r with timer.count := r.timer.latch, reload := false }
    else do
      let count ← Count.prev r.timer.count
      pure { r with timer.count := count }
  return if r.timer.enabled ∧ r.timer.count = 0 then { r with timer := r.timer.raise } else r

def workArea (r : Mmc3) : WorkArea :=
  if !r.wramReadable then .closed
  else if r.wramWritable then .ram
  else .lockedRam

end Mmc3

end GamePak
