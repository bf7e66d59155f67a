import GamePak.Fault

/-!
Interrupt timers. A timer counts CPU cycles, either each one or, in scanline mode, one for every
341 dots at three dots a cycle. When its count rolls over it raises the interrupt line, unless
its output is off. A control write clears the line and may load the counter from the latch; an
acknowledge write clears the line and restores the enable bit kept for that moment.
-/

namespace GamePak

namespace Timer

inductive Mode where
  | cycle
  /-- Through the prescaler, about once a scanline. -/
  | scanline
  deriving DecidableEq

inductive Counter where
  /-- Counts up; reloads from the latch when clocked with a low byte of FF. -/
  | up8
  /-- Counts up; reloads from the latch when clocked at FFFF. -/
  | up16
  /-- The low byte counts up and reloads alone, the high byte stays. -/
  | up8Low
  /-- Counts down; rolls over on reaching FFFF. -/
  | down16
  /-- Counts down; rolls over when clocked at zero. -/
  | down16Zero
  deriving DecidableEq

/-- Who clears a raised line. -/
inductive Ack where
  /-- Only a write to a register of the board. -/
  | registerWrite
  /-- The CPU, when it takes the interrupt. -/
  | cpu
  deriving DecidableEq

def Mode.name : Mode → String
  | cycle => "Cycle"
  | scanline => "Scanline"

def Mode.all : List Mode := [cycle, scanline]

def Mode.ofName? (s : String) : Option Mode := all.find? (·.name == s)

def Counter.name : Counter → String
  | up8 => "Up8"
  | up16 => "Up16"
  | up8Low => "Up8Low"
  | down16 => "Down16"
  | down16Zero => "Down16Zero"

def Counter.all : List Counter := [up8, up16, up8Low, down16, down16Zero]

def Counter.ofName? (s : String) : Option Counter := all.find? (·.name == s)

def Ack.name : Ack → String
  | registerWrite => "RegisterWrite"
  | cpu => "Cpu"

def Ack.all : List Ack := [registerWrite, cpu]

def Ack.ofName? (s : String) : Option Ack := all.find? (·.name == s)

/-- The three bits of a control write. -/
structure Control where
  enableAfterAck : Bool
  enable : Bool
  mode : Bool
  deriving DecidableEq

def Control.ofByte (value : UInt8) : Control where
  enableAfterAck := value.toNat.testBit 0
  enable := value.toNat.testBit 1
  mode := value.toNat.testBit 2

def Control.toNat (c : Control) : Nat :=
  c.enableAfterAck.toNat + 2 * c.enable.toNat + 4 * c.mode.toNat

end Timer

structure Timer where
  latch : UInt16 := 0
  count : UInt16 := 0
  /-- Dots left before the next count in scanline mode, a signed sixteen-bit word. -/
  prescaler : Int := 0
  enabled : Bool := false
  enabledAfterAck : Bool := false
  /-- When off, the counter runs but does not raise the line. -/
  output : Bool := true
  mode : Timer.Mode := .cycle
  counter : Timer.Counter
  pending : Bool := false
  ack : Timer.Ack
  deriving DecidableEq

namespace Timer

/-- Dots in a scanline. -/
def period : Int := 341

/-- Dots in a CPU cycle. -/
def dotsPerCycle : Int := 3

/-- The prescaler is within the range in which clocking keeps it. -/
def Valid (t : Timer) : Prop := 0 ≤ t.prescaler ∧ t.prescaler ≤ period

instance (t : Timer) : Decidable t.Valid := inferInstanceAs (Decidable (_ ∧ _))

def raise (t : Timer) : Timer := { t with pending := true }

/-- Clears the line from the board's side. -/
def clear (t : Timer) : Timer := { t with pending := false }

/-- The CPU takes the interrupt. -/
def acknowledge (t : Timer) : Timer :=
  match t.ack with
  | .cpu => t.clear
  | .registerWrite => t

def writeControl (t : Timer) (c : Control) : Timer :=
  let t := { t with enabledAfterAck := c.enableAfterAck, enabled := c.enable, pending := false }
  if c.enable then { t with count := t.latch, prescaler := period } else t

def writeAck (t : Timer) : Timer :=
  { t with pending := false, enabled := t.enabledAfterAck }

/-- One count: the new value, and whether the counter rolled over. -/
def Counter.step (c : Counter) (latch count : UInt16) : Except Fault (Bool × UInt16) :=
  match c with
  | up8 =>
    if count % 256 = 255 then .ok (true, latch % 256)
    else (Count.next count).map (false, ·)
  | up16 =>
    if count = 0xFFFF then .ok (true, latch)
    else (Count.next count).map (false, ·)
  | up8Low =>
    if count % 256 = 255 then .ok (true, count / 256 * 256 + latch % 256)
    else (Count.next count).map (false, ·)
  | down16 => .ok (count - 1 = 0xFFFF, count - 1)
  | down16Zero => .ok (count = 0, count - 1)

/-- Counts once and raises the line on a roll-over. -/
def tick (t : Timer) : Except Fault (Bool × Timer) := do
  let (rolled, count) ← t.counter.step t.latch t.count
  return (rolled, { t with count, pending := t.pending || (rolled && t.output) })

/-- One CPU cycle; the flag tells whether the counter rolled over. -/
def clock (t : Timer) : Except Fault (Bool × Timer) :=
  if !t.enabled then .ok (false, t)
  else match t.mode with
  | .cycle => t.tick
  | .scanline => do
    let left ← Count.subSigned t.prescaler dotsPerCycle
    if 0 < left then return (false, { t with prescaler := left })
    else tick { t with prescaler := left + period }

end Timer

end GamePak
