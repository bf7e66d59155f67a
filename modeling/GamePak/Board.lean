import GamePak.Board.Codemasters
import GamePak.Board.Discrete
import GamePak.Board.Fcg
import GamePak.Board.Fme7
import GamePak.Board.Mmc1
import GamePak.Board.Mmc2
import GamePak.Board.Mmc3
import GamePak.Board.Vrc3
import GamePak.Board.Vrc4

/-!
Boards: the registers of one cartridge, whichever chip holds them, behind the operations that the
CPU and the picture unit see. A write and the read of a tile answer with selections; a cycle and
a scanline change the registers alone.
-/

namespace GamePak

/-- The kinds of board. -/
inductive BoardKind where
  | discrete (b : Discrete)
  | mmc1
  | mmc2
  | mmc3
  | fcg
  | vrc4
  | fme7
  | codemasters
  | vrc3
  deriving DecidableEq

inductive Board where
  | discrete (b : Discrete)
  | mmc1 (r : Mmc1)
  | mmc2 (r : Mmc2)
  | mmc3 (r : Mmc3)
  | fcg (r : Fcg)
  | vrc4 (r : Vrc4)
  | fme7 (r : Fme7)
  | codemasters (r : Codemasters)
  | vrc3 (r : Vrc3)
  deriving DecidableEq

/-- What a CPU address reaches. -/
inductive PrgTarget where
  | rom (offset : Nat)
  | wram (offset : Nat)
  /-- Work RAM that ignores writes. -/
  | lockedWram (offset : Nat)
  /-- A register of the board. -/
  | register
  | openBus
  deriving DecidableEq

/-- What an address of the picture unit reaches. -/
inductive PpuTarget where
  | pattern (offset : Nat)
  | nametable (offset : Nat)
  deriving DecidableEq

namespace BoardKind

def name : BoardKind → String
  | discrete b => b.name
  | mmc1 => Mmc1.name
  | mmc2 => Mmc2.name
  | mmc3 => Mmc3.name
  | fcg => Fcg.name
  | vrc4 => Vrc4.name
  | fme7 => Fme7.name
  | codemasters => Codemasters.name
  | vrc3 => Vrc3.name

def layout : BoardKind → Layout
  | discrete b => b.layout
  | mmc1 => Mmc1.layout
  | mmc2 => Mmc2.layout
  | mmc3 => Mmc3.layout
  | fcg => Fcg.layout
  | vrc4 => Vrc4.layout
  | fme7 => Fme7.layout
  | codemasters => Codemasters.layout
  | vrc3 => Vrc3.layout

/-- The registers and selections at power-on, if the board fits the descriptor. -/
def start? (k : BoardKind) (d : Descriptor) : Option (Reply Board) :=
  match k with
  | discrete b => (b.start? d).map (Reply.map .discrete)
  | mmc1 => (Mmc1.start? d).map (Reply.map .mmc1)
  | mmc2 => (Mmc2.start? d).map (Reply.map .mmc2)
  | mmc3 => (Mmc3.start? d).map (Reply.map .mmc3)
  | fcg => (Fcg.start? d).map (Reply.map .fcg)
  | vrc4 => (Vrc4.start? d).map (Reply.map .vrc4)
  | fme7 => (Fme7.start? d).map (Reply.map .fme7)
  | codemasters => (Codemasters.start? d).map (Reply.map .codemasters)
  | vrc3 => (Vrc3.start? d).map (Reply.map .vrc3)

end BoardKind

namespace Board

def kind : Board → BoardKind
  | discrete b => .discrete b
  | mmc1 _ => .mmc1
  | mmc2 _ => .mmc2
  | mmc3 _ => .mmc3
  | fcg _ => .fcg
  | vrc4 _ => .vrc4
  | fme7 _ => .fme7
  | codemasters _ => .codemasters
  | vrc3 _ => .vrc3

def name (b : Board) : String := b.kind.name

/-! ## The timer -/

def timer? : Board → Option Timer
  | mmc3 r => some r.timer
  | fcg r => some r.timer
  | vrc4 r => r.timer
  | fme7 r => some r.timer
  | vrc3 r => some r.timer
  | _ => none

/-- Changes the timer, if there is one. -/
def mapTimer (f : Timer → Timer) : Board → Board
  | mmc3 r => mmc3 { r with timer := f r.timer }
  | fcg r => fcg { r with timer := f r.timer }
  | vrc4 r => vrc4 { r with timer := r.timer.map f }
  | fme7 r => fme7 { r with timer := f r.timer }
  | vrc3 r => vrc3 { r with timer := f r.timer }
  | b => b

def irqPending (b : Board) : Bool := b.timer?.any (·.pending)

/-- The CPU takes the interrupt. -/
def acknowledge (b : Board) : Board := b.mapTimer Timer.acknowledge

/-- One CPU cycle. The MMC3 counts scanlines, so cycles pass it by. -/
def clock : Board → Except Fault Board
  | fcg r => do
    let (_, timer) ← r.timer.clock
    return fcg { r with timer }
  | vrc4 r =>
    match r.timer with
    | some t => do
      let (_, timer) ← t.clock
      return vrc4 { r with timer := some timer }
    | none => return vrc4 r
  | fme7 r => do
    let (_, timer) ← r.timer.clock
    return fme7 { r with timer }
  | vrc3 r => do
    let (_, timer) ← r.timer.clock
    return vrc3 { r with timer }
  | b => return b

/-- One rendered scanline. -/
def scanline : Board → Except Fault Board
  | mmc3 r => do return mmc3 (← r.scanline)
  | b => return b

/-! ## The buses -/

def write (b : Board) (addr : UInt16) (value : UInt8) : Except Fault (Reply Board) :=
  let a := addr.toNat
  match b with
  | discrete b => return (b.write a value).map discrete
  | mmc1 r => do return (← r.write a value).map mmc1
  | mmc2 r => return (r.write a value).map mmc2
  | mmc3 r => return (r.write a value).map mmc3
  | fcg r => return (r.write a value).map fcg
  | vrc4 r => return (r.write a value).map vrc4
  | fme7 r => return (r.write a value).map fme7
  | codemasters r => return (r.write a value).map codemasters
  | vrc3 r => return (r.write a value).map vrc3

/-- The registers after the picture unit has read an address. -/
def afterRead (b : Board) (addr : Nat) : Reply Board :=
  match b with
  | mmc2 r => (r.afterRead addr).map mmc2
  | b => { registers := b }

/-- What lies from 6000 to 7FFF. -/
def workArea : Board → WorkArea
  | mmc1 r => r.workArea
  | mmc3 r => r.workArea
  | fcg _ => .closed
  | vrc4 r => r.workArea
  | fme7 r => r.workArea
  | _ => .ram

def mapPrg (b : Board) (banks : Banks) (addr : UInt16) : Except Fault PrgTarget :=
  let a := addr.toNat
  if a < 0x6000 then return .openBus
  else if a < 0x8000 then
    match b.workArea with
    | .ram =>
      if banks.wram.isEmpty then return .openBus else return .wram (← banks.wram.resolve a)
    | .lockedRam =>
      if banks.wram.isEmpty then return .openBus
      else return .lockedWram (← banks.wram.resolve a)
    | .register => return .register
    | .rom => return .rom (← banks.prg.resolve a)
    | .closed => return .openBus
  else return .rom (← banks.prg.resolve a)

/-- The value of the register that lies in the work RAM area. -/
def readRegister : Board → UInt8
  | vrc4 r => r.readLatch
  | _ => 0

/-! ## Registers from elsewhere -/

/-- The registers are in the range in which the operations keep them, as those read from a
snapshot might not be. -/
def Valid : Board → Prop
  | mmc1 r => r.Valid
  | b => ∀ t ∈ b.timer?, t.Valid

instance (b : Board) : Decidable b.Valid := by
  cases b <;> unfold Valid <;> infer_instance

end Board

/-- What an address of the picture unit reaches; from 3000 the nametables repeat. -/
def Banks.mapPpu (banks : Banks) (addr : Nat) : Except Fault PpuTarget :=
  if addr < 0x2000 then return .pattern (← banks.chr.resolve addr)
  else return .nametable (← banks.nametables.resolve (0x2000 + addr % 0x1000))

end GamePak
