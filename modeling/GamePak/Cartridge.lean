import GamePak.LoadError
import GamePak.Memory
import GamePak.Registry

/-!
Cartridges: a board, its banks and its memories, as the CPU and the picture unit drive them. A CPU
write reaches work RAM before the board sees it, since some boards have registers in the same
area. Reading a tile may change the board, but only after the byte has been fetched.
-/

namespace GamePak

structure Cartridge where
  descriptor : Descriptor
  prg : Memory
  chr : Memory
  wram : Memory
  banks : Banks
  board : Board

namespace Cartridge

/-- The board and the banks for a cartridge: the descriptor is checked, then the images against it,
then a board is looked for. -/
def findBoard (d : Descriptor) (prg chr : Memory) :
    Except Fault (Noted (Except LoadError (Board × Banks))) :=
  match d.flaw? with
  | some flaw => return { value := .error (.invalidDescriptor d.board flaw) }
  | none =>
    if prg.size ≠ d.prgSize then
      return { value := .error (.imageSize .prg d.prgSize prg.size) }
    else if chr.size ≠ d.chrSize then
      return { value := .error (.imageSize .chr d.chrSize chr.size) }
    else do
      let found ← Registry.configure d
      match found.value with
      | none => return { value := .error (.unknownBoard d.board), notes := found.notes }
      | some (board, banks) =>
        let loaded := .loaded d.board board.name (Registry.mapperName d.mapper?)
        return { value := .ok (board, banks), notes := found.notes ++ [loaded] }

/-- Plugs a cartridge in. Work RAM starts cleared; it is asked for last, once the board has been
noted. -/
def load (d : Descriptor) (prg chr : Memory) :
    Except Fault (Noted (Except LoadError Cartridge)) := do
  let found ← findBoard d prg chr
  match found.value with
  | .error e => return { value := .error e, notes := found.notes }
  | .ok (board, banks) =>
    let wram ← Memory.allocate d.wramSize
    return { value := .ok { descriptor := d, prg, chr, wram, banks, board }, notes := found.notes }

def boardName (c : Cartridge) : String := c.board.name

def mirroring (c : Cartridge) : Mirroring := c.banks.mirroring

/-! ## The CPU's side -/

/-- A CPU read; nothing answers on the open bus, which reads as zero. -/
def read (c : Cartridge) (addr : UInt16) : Except Fault UInt8 := do
  match ← c.board.mapPrg c.banks addr with
  | .rom offset => c.prg.load offset
  | .wram offset => c.wram.load offset
  | .lockedWram offset => c.wram.load offset
  | .register => return c.board.readRegister
  | .openBus => return 0

/-- Work RAM after a CPU write. -/
def writeWram (c : Cartridge) (addr : UInt16) (value : UInt8) : Except Fault Memory := do
  match ← c.board.mapPrg c.banks addr with
  | .wram offset => c.wram.store offset value
  | _ => return c.wram

/-- A CPU write, to work RAM first and then to the board. -/
def write (c : Cartridge) (addr : UInt16) (value : UInt8) : Except Fault (Noted Cartridge) := do
  let wram ← c.writeWram addr value
  let reply ← c.board.write addr value
  let banks ← c.banks.applyAll reply.selects
  return { value := { c with wram, banks, board := reply.registers }, notes := reply.notes }

def clock (c : Cartridge) : Except Fault Cartridge := do
  return { c with board := ← c.board.clock }

def scanline (c : Cartridge) : Except Fault Cartridge := do
  return { c with board := ← c.board.scanline }

def irqPending (c : Cartridge) : Bool := c.board.irqPending

def acknowledge (c : Cartridge) : Cartridge := { c with board := c.board.acknowledge }

/-! ## The picture unit's side -/

/-- The picture unit has fourteen address lines. -/
def videoAddress (addr : UInt16) : Nat := addr.toNat % 0x4000

def fetch (c : Cartridge) (video : VideoMemory) (addr : Nat) : Except Fault UInt8 := do
  match ← c.banks.mapPpu addr with
  | .pattern offset =>
    if c.descriptor.usesChrRam then video.patterns.load offset else c.chr.load offset
  | .nametable offset => video.nametables.load offset

/-- The byte at a video address, and the cartridge after the board has noticed the read. -/
def readVideo (c : Cartridge) (video : VideoMemory) (addr : UInt16) :
    Except Fault (UInt8 × Cartridge) := do
  let a := videoAddress addr
  let value ← c.fetch video a
  let reply := c.board.afterRead a
  let banks ← c.banks.applyAll reply.selects
  return (value, { c with banks, board := reply.registers })

/-- Video memory after a write; pattern ROM ignores it. -/
def writeVideo (c : Cartridge) (video : VideoMemory) (addr : UInt16) (value : UInt8) :
    Except Fault VideoMemory := do
  match ← c.banks.mapPpu (videoAddress addr) with
  | .pattern offset =>
    if c.descriptor.usesChrRam then
      return { video with patterns := ← video.patterns.store offset value }
    else return video
  | .nametable offset => return { video with nametables := ← video.nametables.store offset value }

/-! ## Save RAM -/

/-- Work RAM, if a battery keeps it. -/
def saveRam? (c : Cartridge) : Option Memory := if c.descriptor.battery then some c.wram else none

def loadSaveRam (c : Cartridge) (data : Memory) : Except LoadError Cartridge :=
  if data.size = c.wram.size then .ok { c with wram := data }
  else .error (.saveSize c.wram.size data.size)

end Cartridge

end GamePak
