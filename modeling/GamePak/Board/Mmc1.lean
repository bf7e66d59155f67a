import GamePak.Board.Reply

/-!
The MMC1. Its registers are filled through a serial input: each write to program memory shifts
in one bit, and the address of the fifth says which register takes the five bits. A byte with
its top bit set empties the input and fixes the last program bank.
-/

namespace GamePak

namespace Mmc1

inductive PrgMode where
  /-- One bank of 32 KiB. -/
  | whole
  /-- The first 16 KiB bank below, the selected one above. -/
  | fixFirst
  /-- The selected 16 KiB bank below, the last one above. -/
  | fixLast
  deriving DecidableEq

inductive ChrMode where
  /-- One bank of 8 KiB. -/
  | whole
  /-- Two banks of 4 KiB. -/
  | halves
  deriving DecidableEq

def PrgMode.name : PrgMode → String
  | whole => "Bank32kb"
  | fixFirst => "FixFirst16kb"
  | fixLast => "FixLast16kb"

def PrgMode.all : List PrgMode := [whole, fixFirst, fixLast]

def PrgMode.ofName? (s : String) : Option PrgMode := all.find? (·.name == s)

def ChrMode.name : ChrMode → String
  | whole => "Bank8kb"
  | halves => "Bank4kb"

def ChrMode.all : List ChrMode := [whole, halves]

def ChrMode.ofName? (s : String) : Option ChrMode := all.find? (·.name == s)

end Mmc1

structure Mmc1 where
  /-- Bits shifted in so far, the latest at bit 4. -/
  shift : UInt8 := 0
  shiftCount : UInt8 := 0
  prgMode : Mmc1.PrgMode := .fixLast
  chrMode : Mmc1.ChrMode := .whole
  chrSelect0 : UInt8 := 0
  chrSelect1 : UInt8 := 0
  prgSelect : UInt8 := 0
  wramEnabled : Bool := true
  /-- Bit 4 of the first pattern register picks the 256 KiB half of program memory. -/
  outerPrg : Bool
  /-- Banks of 8 KiB in work RAM. -/
  wramBanks : Nat
  deriving DecidableEq

namespace Mmc1

def name : String := "MMC1"

def boards : List String :=
  ["MAPPER001", "NES-SAROM", "NES-SBROM", "NES-SCROM", "NES-SEROM", "NES-SGROM", "NES-SKROM",
    "NES-SLROM", "NES-SL1ROM", "NES-SNROM", "NES-SOROM", "NES-SUROM", "NES-SXROM", "HVC-SNROM"]

def layout : Layout := .even 2 2

def chrSelects (r : Mmc1) : List Select :=
  let first := r.chrSelect0.toNat
  match r.chrMode with
  | .whole => [.chr 0 (first / 2 * 2), .chr 1 (first / 2 * 2 + 1)]
  | .halves => [.chr 0 first, .chr 1 r.chrSelect1.toNat]

/-- The work RAM bank, taken from spare bits of the first pattern register. -/
def wramBank (r : Mmc1) : Nat :=
  match r.wramBanks with
  | 4 => r.chrSelect0.toNat / 4 % 4
  | 2 => r.chrSelect0.toNat / 8 % 2
  | _ => 0

/-- First bank of the 256 KiB half in use. -/
def outerBank (r : Mmc1) : Nat :=
  if r.outerPrg && r.chrSelect0.toNat.testBit 4 then 16 else 0

def prgSelects (r : Mmc1) : List Select :=
  let bank := r.outerBank + r.prgSelect.toNat % 16
  match r.prgMode with
  | .whole => [.prg 0 (bank / 2 * 2), .prg 1 (bank / 2 * 2 + 1)]
  | .fixFirst => [.prg 0 r.outerBank, .prg 1 bank]
  | .fixLast => [.prg 0 bank, .prg 1 (r.outerBank + 15)]

/-- Every selection that the registers ask for. -/
def selects (r : Mmc1) : List Select := r.chrSelects ++ .wram r.wramBank :: r.prgSelects

def start? (d : Descriptor) : Option (Reply Mmc1) :=
  if d.isAnyOf boards ∧ 0x8000 ≤ d.prgSize ∧ d.prgSize ≤ 0x80000 ∧ d.patternSize ≤ 0x20000 ∧
      d.wramSize ≤ 0x8000 then
    let r : Mmc1 := { outerPrg := d.prgSize == 0x80000, wramBanks := d.wramSize / 0x2000 }
    some { registers := r, selects := r.selects }
  else none

/-- The serial input is between two writes, so it holds fewer than five bits. -/
def Valid (r : Mmc1) : Prop := r.shiftCount < 5

instance (r : Mmc1) : Decidable r.Valid := inferInstanceAs (Decidable (_ < _))

/-- The mirroring field of the control register. -/
def controlMirroring (value : UInt8) : Mirroring :=
  match value.toNat % 4 with
  | 0 => .singleA
  | 1 => .singleB
  | 2 => .vertical
  | _ => .horizontal

def controlPrgMode (value : UInt8) : PrgMode :=
  match value.toNat / 4 % 4 with
  | 0 => .whole
  | 1 => .whole
  | 2 => .fixFirst
  | _ => .fixLast

def controlChrMode (value : UInt8) : ChrMode :=
  if value.toNat.testBit 4 then .halves else .whole

/-- Empties the serial input and fixes the last bank. -/
def reset (r : Mmc1) : Reply Mmc1 :=
  let r := { r with shift := 0, shiftCount := 0, prgMode := .fixLast }
  { registers := r, selects := r.selects }

/-- Gives the five bits to the register that the address names. -/
def commit (r : Mmc1) (addr : Nat) (value : UInt8) : Reply Mmc1 :=
  let r := { r with shift := 0, shiftCount := 0 }
  if addr < 0xA000 then
    let r := { r with prgMode := controlPrgMode value, chrMode := controlChrMode value }
    { registers := r, selects := .mirroring (controlMirroring value) :: r.selects }
  else if addr < 0xC000 then
    let r := { r with chrSelect0 := value % 32 }
    { registers := r, selects := r.selects }
  else if addr < 0xE000 then
    let r := { r with chrSelect1 := value % 32 }
    { registers := r, selects := r.selects }
  else
    let r := { r with prgSelect := value % 16, wramEnabled := !value.toNat.testBit 4 }
    { registers := r, selects := r.selects }

def write (r : Mmc1) (addr : Nat) (value : UInt8) : Except Fault (Reply Mmc1) :=
  if addr < 0x8000 then .ok { registers := r }
  else if value.toNat.testBit 7 then .ok r.reset
  else do
    let shift := r.shift / 2 ||| value % 2 * 16
    let shiftCount ← Count.nextByte r.shiftCount
    if shiftCount < 5 then return { registers := { r with shift, shiftCount } }
    else return r.commit addr shift

def workArea (r : Mmc1) : WorkArea := if r.wramEnabled then .ram else .closed

end Mmc1

end GamePak
