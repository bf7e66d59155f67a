import GamePak.Board.Reply
import GamePak.Timer
import GamePak.Word

/-!
The Bandai FCG family. The older chips decode the work RAM area and write the timer's count
directly; the newer one decodes program memory and goes through a latch. A cartridge known by
mapper number alone may be either, so it answers in both areas.
-/

namespace GamePak

structure Fcg where
  /-- 4 for the older chips, 5 for the newer one, anything else for not known. -/
  variety : UInt8
  timer : Timer := { counter := .down16Zero, ack := .registerWrite }
  deriving DecidableEq

namespace Fcg

def name : String := "Bandai FCG"

def boards : List String := ["MAPPER016", "BANDAI-FCG-1", "BANDAI-FCG-2", "BANDAI-LZ93D50"]

def layout : Layout := .even 2 8

def varietyOf (d : Descriptor) : UInt8 :=
  if d.board = "BANDAI-FCG-1" ∨ d.board = "BANDAI-FCG-2" then 4
  else if d.board = "BANDAI-LZ93D50" then 5
  else d.submapper

def start? (d : Descriptor) : Option (Reply Fcg) :=
  if d.isAnyOf boards ∧ 0x8000 ≤ d.prgSize ∧ d.prgSize ≤ 0x40000 ∧ d.patternSize ≤ 0x40000 then
    some { registers := { variety := varietyOf d }, selects := [.prgFromEnd 1 0] }
  else none

/-- The addresses at which the chip has registers. -/
def Decodes (r : Fcg) (addr : Nat) : Prop :=
  if r.variety = 4 then 0x6000 ≤ addr ∧ addr < 0x8000
  else if r.variety = 5 then 0x8000 ≤ addr
  else 0x6000 ≤ addr

instance (r : Fcg) (addr : Nat) : Decidable (r.Decodes addr) := by
  unfold Decodes
  infer_instance

/-- Timer writes at this address go to the count and not to the latch. -/
def Direct (r : Fcg) (addr : Nat) : Prop := r.variety = 4 ∨ addr < 0x8000

instance (r : Fcg) (addr : Nat) : Decidable (r.Direct addr) := by
  unfold Direct
  infer_instance

/-- Enables or stops the timer and clears the line; through the latch it also loads the count. -/
def writeEnable (r : Fcg) (addr : Nat) (value : UInt8) : Fcg :=
  let t := { r.timer with enabled := value.toNat.testBit 0 }.clear
  { r with timer := if r.Direct addr then t else { t with count := t.latch } }

def writeLow (r : Fcg) (addr : Nat) (value : UInt8) : Fcg :=
  if r.Direct addr then { r with timer.count := Word.setLow r.timer.count value }
  else { r with timer.latch := Word.setLow r.timer.latch value }

def writeHigh (r : Fcg) (addr : Nat) (value : UInt8) : Fcg :=
  if r.Direct addr then { r with timer.count := Word.setHigh r.timer.count value }
  else { r with timer.latch := Word.setHigh r.timer.latch value }

def write (r : Fcg) (addr : Nat) (value : UInt8) : Reply Fcg :=
  if ¬ r.Decodes addr then { registers := r }
  else match addr % 16 with
  | 0x8 => { registers := r, selects := [.prg 0 (value.toNat % 16)] }
  | 0x9 => { registers := r, selects := [.mirroring (.ofRegister value)] }
  | 0xA => { registers := r.writeEnable addr value }
  | 0xB => { registers := r.writeLow addr value }
  | 0xC => { registers := r.writeHigh addr value }
  | 0xD => { registers := r, notes := [.eepromWrite value] }
  | register =>
    if register < 8 then { registers := r, selects := [.chr register value.toNat] }
    else { registers := r }

end Fcg

end GamePak
