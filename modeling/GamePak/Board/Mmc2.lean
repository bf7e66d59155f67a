import GamePak.Board.Reply

/-!
The MMC2. Each half of the pattern tables has two bank registers and a latch that says which of
them counts. Reading certain tiles flips the latch, after the read itself.
-/

namespace GamePak

namespace Mmc2

/-- Named for the tile that sets it. -/
inductive Latch where
  | fd
  | fe
  deriving DecidableEq

def Latch.name : Latch → String
  | fd => "FD"
  | fe => "FE"

def Latch.all : List Latch := [fd, fe]

def Latch.ofName? (s : String) : Option Latch := all.find? (·.name == s)

/-- One 4 KiB half of the pattern tables. -/
structure Half where
  fd : UInt8 := 0
  fe : UInt8 := 0
  latch : Latch := .fe
  deriving DecidableEq

/-- The bank that the latch makes current. -/
def Half.bank (h : Half) : Nat :=
  match h.latch with
  | .fd => h.fd.toNat
  | .fe => h.fe.toNat

end Mmc2

structure Mmc2 where
  low : Mmc2.Half := {}
  high : Mmc2.Half := {}
  deriving DecidableEq

namespace Mmc2

def name : String := "MMC2"

def boards : List String := ["MAPPER009", "NES-PNROM", "NES-PEEOROM", "HVC-PNROM"]

def layout : Layout := .even 4 2

/-- Every selection that the registers and latches ask for. -/
def selects (r : Mmc2) : List Select := [.chr 0 r.low.bank, .chr 1 r.high.bank]

def start? (d : Descriptor) : Option (Reply Mmc2) :=
  if d.isAnyOf boards ∧ d.prgSize = 0x20000 ∧ d.patternSize ≤ 0x20000 then
    some {
      registers := {}
      selects := [.prgBefore 1 2, .prgBefore 2 1, .prgBefore 3 0] }
  else none

def write (r : Mmc2) (addr : Nat) (value : UInt8) : Reply Mmc2 :=
  if addr < 0xA000 then { registers := r }
  else if addr < 0xB000 then
    { registers := r, selects := .prg 0 (value.toNat % 16) :: r.selects }
  else if addr < 0xC000 then
    let r := { r with low.fd := value % 32 }
    { registers := r, selects := r.selects }
  else if addr < 0xD000 then
    let r := { r with low.fe := value % 32 }
    { registers := r, selects := r.selects }
  else if addr < 0xE000 then
    let r := { r with high.fd := value % 32 }
    { registers := r, selects := r.selects }
  else if addr < 0xF000 then
    let r := { r with high.fe := value % 32 }
    { registers := r, selects := r.selects }
  else
    { registers := r, selects := .mirroring (.ofBit (value.toNat.testBit 0)) :: r.selects }

/-- The latches after a read by the picture unit: one tile row sets the low half's latch, eight
set the high half's. -/
def afterRead (r : Mmc2) (addr : Nat) : Reply Mmc2 :=
  let flipped : Option Mmc2 :=
    if addr = 0x0FD8 then some { r with low.latch := .fd }
    else if addr = 0x0FE8 then some { r with low.latch := .fe }
    else if 0x1FD8 ≤ addr ∧ addr ≤ 0x1FDF then some { r with high.latch := .fd }
    else if 0x1FE8 ≤ addr ∧ addr ≤ 0x1FEF then some { r with high.latch := .fe }
    else none
  match flipped with
  | some r => { registers := r, selects := r.selects }
  | none => { registers := r }

end Mmc2

end GamePak
