import GamePak.Registry
import GamePak.Value.Shape

/-!
Boards as records. Each type has a writer `toValue`, the `shape` of what it writes, and a
reader `ofValue?` that goes back from a value of this shape.
-/

namespace GamePak

open Value

namespace Timer

def toValue (t : Timer) : Value := record [
  ("latch", nat t.latch.toNat),
  ("count", nat t.count.toNat),
  ("prescaler", int t.prescaler),
  ("enabled", flag t.enabled),
  ("enabled_after_ack", flag t.enabledAfterAck),
  ("output", flag t.output),
  ("mode", .name t.mode.name),
  ("counter", .name t.counter.name),
  ("pending", flag t.pending),
  ("ack", .name t.ack.name)]

def shape : Shape := .record [
  ("latch", .natural 2),
  ("count", .natural 2),
  ("prescaler", .signed 2),
  ("enabled", .flag),
  ("enabled_after_ack", .flag),
  ("output", .flag),
  ("mode", .name (Mode.all.map Mode.name)),
  ("counter", .name (Counter.all.map Counter.name)),
  ("pending", .flag),
  ("ack", .name (Ack.all.map Ack.name))]

def ofValue? (v : Value) : Option Timer := do
  let latch ← (← v.field? "latch").word?
  let count ← (← v.field? "count").word?
  let prescaler ← (← v.field? "prescaler").signedWord?
  let enabled ← (← v.field? "enabled").flag?
  let enabledAfterAck ← (← v.field? "enabled_after_ack").flag?
  let output ← (← v.field? "output").flag?
  let mode ← (← v.field? "mode").name?.bind Mode.ofName?
  let counter ← (← v.field? "counter").name?.bind Counter.ofName?
  let pending ← (← v.field? "pending").flag?
  let ack ← (← v.field? "ack").name?.bind Ack.ofName?
  return {
    latch, count, prescaler, enabled, enabledAfterAck, output, mode, counter, pending, ack }

end Timer

/-! ## Registers -/

namespace Mmc1

def toValue (r : Mmc1) : Value := record [
  ("shift_reg", nat r.shift.toNat),
  ("shift_writes", nat r.shiftCount.toNat),
  ("prg_mode", .name r.prgMode.name),
  ("chr_mode", .name r.chrMode.name),
  ("chr_select0", nat r.chrSelect0.toNat),
  ("chr_select1", nat r.chrSelect1.toNat),
  ("prg_select", nat r.prgSelect.toNat),
  ("wram_enabled", flag r.wramEnabled),
  ("outer_prg_select", flag r.outerPrg),
  ("wram_banks", nat r.wramBanks)]

def shape : Shape := .record [
  ("shift_reg", .natural 1),
  ("shift_writes", .natural 1),
  ("prg_mode", .name (PrgMode.all.map PrgMode.name)),
  ("chr_mode", .name (ChrMode.all.map ChrMode.name)),
  ("chr_select0", .natural 1),
  ("chr_select1", .natural 1),
  ("prg_select", .natural 1),
  ("wram_enabled", .flag),
  ("outer_prg_select", .flag),
  ("wram_banks", .natural 8)]

def ofValue? (v : Value) : Option Mmc1 := do
  let shift ← (← v.field? "shift_reg").byte?
  let shiftCount ← (← v.field? "shift_writes").byte?
  let prgMode ← (← v.field? "prg_mode").name?.bind PrgMode.ofName?
  let chrMode ← (← v.field? "chr_mode").name?.bind ChrMode.ofName?
  let chrSelect0 ← (← v.field? "chr_select0").byte?
  let chrSelect1 ← (← v.field? "chr_select1").byte?
  let prgSelect ← (← v.field? "prg_select").byte?
  let wramEnabled ← (← v.field? "wram_enabled").flag?
  let outerPrg ← (← v.field? "outer_prg_select").flag?
  let wramBanks ← (← v.field? "wram_banks").size?
  return {
    shift, shiftCount, prgMode, chrMode, chrSelect0, chrSelect1, prgSelect, wramEnabled,
    outerPrg, wramBanks }

end Mmc1

namespace Mmc2

def toValue (r : Mmc2) : Value := record [
  ("chr_selects0", list [nat r.low.fd.toNat, nat r.low.fe.toNat]),
  ("chr_selects1", list [nat r.high.fd.toNat, nat r.high.fe.toNat]),
  ("latches", list [.name r.low.latch.name, .name r.high.latch.name])]

def shape : Shape := .record [
  ("chr_selects0", .vector 2 (.natural 1)),
  ("chr_selects1", .vector 2 (.natural 1)),
  ("latches", .vector 2 (.name (Latch.all.map Latch.name)))]

def ofValue? (v : Value) : Option Mmc2 := do
  let low ← (← v.field? "chr_selects0").vector? 2 byte?
  let high ← (← v.field? "chr_selects1").vector? 2 byte?
  let latches ← (← v.field? "latches").vector? 2 (·.name?.bind Latch.ofName?)
  return {
    low := { fd := low[0], fe := low[1], latch := latches[0] }
    high := { fd := high[0], fe := high[1], latch := latches[1] } }

end Mmc2

namespace Mmc3

def toValue (r : Mmc3) : Value := record [
  ("select", nat r.select.toNat),
  ("regs", list (r.banks.toList.map fun b => nat b.toNat)),
  ("hardwired_mirroring", flag r.fixedMirroring),
  ("wram_read_enabled", flag r.wramReadable),
  ("wram_write_enabled", flag r.wramWritable),
  ("irq_reload", flag r.reload),
  ("irq", r.timer.toValue)]

def shape : Shape := .record [
  ("select", .natural 1),
  ("regs", .vector 8 (.natural 1)),
  ("hardwired_mirroring", .flag),
  ("wram_read_enabled", .flag),
  ("wram_write_enabled", .flag),
  ("irq_reload", .flag),
  ("irq", Timer.shape)]

def ofValue? (v : Value) : Option Mmc3 := do
  let select ← (← v.field? "select").byte?
  let banks ← (← v.field? "regs").vector? 8 byte?
  let fixedMirroring ← (← v.field? "hardwired_mirroring").flag?
  let wramReadable ← (← v.field? "wram_read_enabled").flag?
  let wramWritable ← (← v.field? "wram_write_enabled").flag?
  let reload ← (← v.field? "irq_reload").flag?
  let timer ← Timer.ofValue? (← v.field? "irq")
  return { select, banks, fixedMirroring, wramReadable, wramWritable, reload, timer }

end Mmc3

namespace Fcg

def toValue (r : Fcg) : Value := record [
  ("submapper", nat r.variety.toNat),
  ("irq", r.timer.toValue)]

def shape : Shape := .record [("submapper", .natural 1), ("irq", Timer.shape)]

def ofValue? (v : Value) : Option Fcg := do
  let variety ← (← v.field? "submapper").byte?
  let timer ← Timer.ofValue? (← v.field? "irq")
  return { variety, timer }

end Fcg

namespace Vrc4

def toValue (r : Vrc4) : Value := record [
  ("mapper", nat r.mapper.toNat),
  ("prg_select0", nat r.prgSelect.toNat),
  ("chr_selects", list (r.chrSelects.toList.map fun b => nat b.toNat)),
  ("swap_mode", flag r.swapped),
  ("latch", ofOption flag r.latch),
  ("irq", ofOption Timer.toValue r.timer)]

def shape : Shape := .record [
  ("mapper", .natural 2),
  ("prg_select0", .natural 1),
  ("chr_selects", .vector 8 (.natural 2)),
  ("swap_mode", .flag),
  ("latch", .optional .flag),
  ("irq", .optional Timer.shape)]

def ofValue? (v : Value) : Option Vrc4 := do
  let mapper ← (← v.field? "mapper").word?
  let prgSelect ← (← v.field? "prg_select0").byte?
  let chrSelects ← (← v.field? "chr_selects").vector? 8 word?
  let swapped ← (← v.field? "swap_mode").flag?
  let latch ← (← v.field? "latch").optional? flag?
  let timer ← (← v.field? "irq").optional? Timer.ofValue?
  return { mapper, prgSelect, chrSelects, swapped, latch, timer }

end Vrc4

namespace Fme7

def toValue (r : Fme7) : Value := record [
  ("command", nat r.command.toNat),
  ("wram_banked", flag r.wramBanked),
  ("wram_enabled", flag r.wramEnabled),
  ("irq", r.timer.toValue)]

def shape : Shape := .record [
  ("command", .natural 1),
  ("wram_banked", .flag),
  ("wram_enabled", .flag),
  ("irq", Timer.shape)]

def ofValue? (v : Value) : Option Fme7 := do
  let command ← (← v.field? "command").byte?
  let wramBanked ← (← v.field? "wram_banked").flag?
  let wramEnabled ← (← v.field? "wram_enabled").flag?
  let timer ← Timer.ofValue? (← v.field? "irq")
  return { command, wramBanked, wramEnabled, timer }

end Fme7

namespace Codemasters

def toValue (r : Codemasters) : Value := record [("mirroring_ctrl", flag r.mirroringControl)]

def shape : Shape := .record [("mirroring_ctrl", .flag)]

def ofValue? (v : Value) : Option Codemasters := do
  let mirroringControl ← (← v.field? "mirroring_ctrl").flag?
  return { mirroringControl }

end Codemasters

namespace Vrc3

def toValue (r : Vrc3) : Value := record [("irq", r.timer.toValue)]

def shape : Shape := .record [("irq", Timer.shape)]

def ofValue? (v : Value) : Option Vrc3 := do
  let timer ← Timer.ofValue? (← v.field? "irq")
  return { timer }

end Vrc3

/-! ## Boards -/

/-- The tag that a board of plain logic goes by in records. -/
def Discrete.tag : Discrete → String
  | nrom => "NRom"
  | uxrom => "UxRom"
  | cnrom => "CNRom"
  | axrom => "AxRom"
  | colorDreams => "ColorDreams"
  | gxrom => "GxRom"

namespace BoardKind

/-- The tag that a kind of board goes by in records. -/
def tag : BoardKind → String
  | discrete b => b.tag
  | mmc1 => "MMC1"
  | mmc2 => "MMC2"
  | mmc3 => "MMC3"
  | fcg => "BandaiFCG"
  | vrc4 => "VRC2_4"
  | fme7 => "SunsoftFME7"
  | codemasters => "Codemasters"
  | vrc3 => "VRC3"

def ofTag? (s : String) : Option BoardKind := Registry.kinds.find? (·.tag == s)

/-- The shape of the registers of a board. -/
def shape : BoardKind → Shape
  | discrete _ => .unit
  | mmc1 => Mmc1.shape
  | mmc2 => Mmc2.shape
  | mmc3 => Mmc3.shape
  | fcg => Fcg.shape
  | vrc4 => Vrc4.shape
  | fme7 => Fme7.shape
  | codemasters => Codemasters.shape
  | vrc3 => Vrc3.shape

/-- The registers of a board of a known kind. -/
def readRegisters? (k : BoardKind) (v : Value) : Option Board :=
  match k with
  | discrete b =>
    match v with
    | unit => some (.discrete b)
    | _ => none
  | mmc1 => (Mmc1.ofValue? v).map .mmc1
  | mmc2 => (Mmc2.ofValue? v).map .mmc2
  | mmc3 => (Mmc3.ofValue? v).map .mmc3
  | fcg => (Fcg.ofValue? v).map .fcg
  | vrc4 => (Vrc4.ofValue? v).map .vrc4
  | fme7 => (Fme7.ofValue? v).map .fme7
  | codemasters => (Codemasters.ofValue? v).map .codemasters
  | vrc3 => (Vrc3.ofValue? v).map .vrc3

end BoardKind

namespace Board

def registers : Board → Value
  | discrete _ => unit
  | mmc1 r => r.toValue
  | mmc2 r => r.toValue
  | mmc3 r => r.toValue
  | fcg r => r.toValue
  | vrc4 r => r.toValue
  | fme7 r => r.toValue
  | codemasters r => r.toValue
  | vrc3 r => r.toValue

/-- A board is written as its registers, under the tag of its kind. -/
def toValue (b : Board) : Value := tagged b.kind.tag b.registers

def shape : Shape := .tagged (Registry.kinds.map fun k => (k.tag, k.shape))

def ofValue? : Value → Option Board
  | tagged tag v => (BoardKind.ofTag? tag).bind (·.readRegisters? v)
  | _ => none

end Board

end GamePak
