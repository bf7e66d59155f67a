import GamePak.Board.Record
import GamePak.Snapshot

/-!
Snapshots as records, with the descriptor among their fields.
-/

namespace GamePak

open Value

def Mirroring.toValue (m : Mirroring) : Value := .name m.name

def Mirroring.shape : Shape := .name (all.map name)

def Mirroring.ofValue? (v : Value) : Option Mirroring := v.name?.bind ofName?

namespace Descriptor

def toValue (d : Descriptor) : Value := record [
  ("board", text d.board),
  ("submapper", nat d.submapper.toNat),
  ("prg_size", nat d.prgSize),
  ("chr_size", nat d.chrSize),
  ("chr_ram_size", nat d.chrRamSize),
  ("wram_size", nat d.wramSize),
  ("has_battery", flag d.battery),
  ("mirroring", d.mirroring.toValue)]

def shape : Shape := .record [
  ("board", .text),
  ("submapper", .natural 1),
  ("prg_size", .natural 8),
  ("chr_size", .natural 8),
  ("chr_ram_size", .natural 8),
  ("wram_size", .natural 8),
  ("has_battery", .flag),
  ("mirroring", Mirroring.shape)]

def ofValue? (v : Value) : Option Descriptor := do
  let board ← (← v.field? "board").text?
  let submapper ← (← v.field? "submapper").byte?
  let prgSize ← (← v.field? "prg_size").size?
  let chrSize ← (← v.field? "chr_size").size?
  let chrRamSize ← (← v.field? "chr_ram_size").size?
  let wramSize ← (← v.field? "wram_size").size?
  let battery ← (← v.field? "has_battery").flag?
  let mirroring ← Mirroring.ofValue? (← v.field? "mirroring")
  return { board, submapper, prgSize, chrSize, chrRamSize, wramSize, battery, mirroring }

end Descriptor

namespace Snapshot

def toValue (s : Snapshot) : Value := record [
  ("version", nat s.version),
  ("descriptor", s.descriptor.toValue),
  ("prg_pages", list (s.prgPages.map nat)),
  ("chr_pages", list (s.chrPages.map nat)),
  ("wram_pages", list (s.wramPages.map nat)),
  ("ciram_pages", list (s.nametablePages.map nat)),
  ("mirroring", s.mirroring.toValue),
  ("wram", list (s.wram.toList.map fun b => nat b.toNat)),
  ("board", s.board.toValue)]

def shape : Shape := .record [
  ("version", .natural 4),
  ("descriptor", Descriptor.shape),
  ("prg_pages", .list (.natural 8)),
  ("chr_pages", .list (.natural 8)),
  ("wram_pages", .list (.natural 8)),
  ("ciram_pages", .list (.natural 8)),
  ("mirroring", Mirroring.shape),
  ("wram", .list (.natural 1)),
  ("board", Board.shape)]

def ofValue? (v : Value) : Option Snapshot := do
  let version ← (← v.field? "version").nat? (1 <<< 32)
  let descriptor ← Descriptor.ofValue? (← v.field? "descriptor")
  let prgPages ← (← v.field? "prg_pages").list? size?
  let chrPages ← (← v.field? "chr_pages").list? size?
  let wramPages ← (← v.field? "wram_pages").list? size?
  let nametablePages ← (← v.field? "ciram_pages").list? size?
  let mirroring ← Mirroring.ofValue? (← v.field? "mirroring")
  let wram ← (← v.field? "wram").list? byte?
  let board ← Board.ofValue? (← v.field? "board")
  return {
    version, descriptor, prgPages, chrPages, wramPages, nametablePages, mirroring
    wram := wram.toArray
    board }

end Snapshot

end GamePak
