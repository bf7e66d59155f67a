import GamePak.Descriptor
import GamePak.Window

/-!
The four bank windows of a cartridge and the selections that a board makes in them. Boards do
not touch the windows: a register write answers with a list of selections, and `Banks.applyAll`
is the one place where they take effect.
-/

namespace GamePak

namespace Window

/-- Program memory: 32 KiB of address space from 8000 (hexadecimal), cut into equal pages. -/
def forPrg (d : Descriptor) (pages : Nat) : Except Fault Window :=
  if pages = 0 then .error .noPages else create d.prgSize 0x8000 (32 * 1024 / pages) pages

/-- Pattern memory: 8 KiB of address space from 0, cut into equal pages. -/
def forChr (d : Descriptor) (pages : Nat) : Except Fault Window :=
  if pages = 0 then .error .noPages else create d.patternSize 0 (8 * 1024 / pages) pages

/-- Work RAM: one page of 8 KiB from 6000. -/
def forWram (d : Descriptor) : Except Fault Window :=
  create d.wramSize 0x6000 (8 * 1024) 1

/-- Bytes in one nametable. -/
def nametableSize : Nat := 1024

/-- Shows in each of the first four pages the nametable that the arrangement puts there. -/
def arrange (w : Window) (m : Mirroring) : Except Fault Window :=
  [0, 1, 2, 3].foldlM (fun w table => w.select table (m.page table)) w

/-- Nametable memory: four pages of 1 KiB from 2000. -/
def forNametables (m : Mirroring) : Except Fault Window := do
  let w ← create (4 * nametableSize) 0x2000 nametableSize 4
  w.arrange m

end Window

structure Banks where
  prg : Window
  chr : Window
  wram : Window
  nametables : Window
  mirroring : Mirroring
  deriving DecidableEq

/-- How a board cuts its program and pattern windows. -/
structure Layout where
  prgStart : Nat
  prgPageSize : Nat
  prgPages : Nat
  chrPages : Nat
  deriving DecidableEq

namespace Layout

/-- The common case: program pages share the 32 KiB from 8000. -/
def even (prgPages chrPages : Nat) : Layout where
  prgStart := 0x8000
  prgPageSize := 32 * 1024 / prgPages
  prgPages
  chrPages

end Layout

/-- One bank selection. -/
inductive Select where
  | prg (page bank : Nat)
  /-- A program bank counted back from the last one, or bank zero if there are not so many. -/
  | prgFromEnd (page back : Nat)
  /-- A program bank counted back from the last one, where there are so many. -/
  | prgBefore (page back : Nat)
  | chr (page bank : Nat)
  | wram (bank : Nat)
  | mirroring (m : Mirroring)
  deriving DecidableEq

namespace Banks

/-- The windows at power-on, before the board has selected anything. -/
def powerOn (d : Descriptor) (layout : Layout) : Except Fault Banks := do
  let prg ← Window.create d.prgSize layout.prgStart layout.prgPageSize layout.prgPages
  let chr ← Window.forChr d layout.chrPages
  let wram ← Window.forWram d
  let nametables ← Window.forNametables d.mirroring
  return { prg, chr, wram, nametables, mirroring := d.mirroring }

def setMirroring (b : Banks) (m : Mirroring) : Except Fault Banks := do
  let nametables ← b.nametables.arrange m
  return { b with nametables, mirroring := m }

def apply (b : Banks) : Select → Except Fault Banks
  | .prg page bank => do return { b with prg := ← b.prg.select page bank }
  | .prgFromEnd page back => do return { b with prg := ← b.prg.selectFromEnd page back }
  | .prgBefore page back => do return { b with prg := ← b.prg.selectBefore page back }
  | .chr page bank => do return { b with chr := ← b.chr.select page bank }
  | .wram bank => do return { b with wram := ← b.wram.select 0 bank }
  | .mirroring m => b.setMirroring m

/-- Makes the selections in order, a later one winning over an earlier one of its page. -/
def applyAll (b : Banks) (selects : List Select) : Except Fault Banks :=
  selects.foldlM apply b

end Banks

end GamePak
