import GamePak.Board.Reply

/-!
Boards made of plain logic chips. Their only memory is which banks they have selected, so a
write is nothing but a list of selections. Each one decodes all of program memory as a single
register.
-/

namespace GamePak

inductive Discrete where
  | nrom
  | uxrom
  | cnrom
  | axrom
  | colorDreams
  | gxrom
  deriving DecidableEq

namespace Discrete

def name : Discrete → String
  | nrom => "NROM"
  | uxrom => "UxROM"
  | cnrom => "CNROM"
  | axrom => "AxROM"
  | colorDreams => "Color Dreams"
  | gxrom => "GxROM"

def boards : Discrete → List String
  | nrom => ["MAPPER000", "NES-NROM-128", "NES-NROM-256", "HVC-NROM-128", "HVC-NROM-256"]
  | uxrom => ["MAPPER002", "NES-UNROM", "NES-UOROM", "HVC-UNROM", "HVC-UN1ROM"]
  | cnrom => ["MAPPER003", "NES-CNROM", "HVC-CNROM"]
  | axrom => ["MAPPER007", "NES-ANROM", "NES-AN1ROM", "NES-AMROM", "NES-AOROM"]
  | colorDreams => ["MAPPER011", "COLORDREAMS-74*377"]
  | gxrom => ["MAPPER066", "NES-GNROM", "NES-MHROM", "BANDAI-GNROM"]

/-- The memory sizes that a board takes. -/
def SizesFit (b : Discrete) (d : Descriptor) : Prop :=
  match b with
  | nrom => (d.prgSize = 0x4000 ∨ d.prgSize = 0x8000) ∧ d.patternSize = 0x2000
  | uxrom => 0x8000 ≤ d.prgSize ∧ d.prgSize ≤ 0x400000 ∧ d.patternSize = 0x2000
  | cnrom => (d.prgSize = 0x4000 ∨ d.prgSize = 0x8000) ∧ d.patternSize ≤ 0x200000
  | axrom => 0x8000 ≤ d.prgSize ∧ d.prgSize ≤ 0x80000 ∧ d.patternSize = 0x2000
  | colorDreams => 0x8000 ≤ d.prgSize ∧ d.prgSize ≤ 0x20000 ∧ d.patternSize ≤ 0x20000
  | gxrom => 0x8000 ≤ d.prgSize ∧ d.prgSize ≤ 0x20000 ∧ d.patternSize ≤ 0x8000

instance (b : Discrete) (d : Descriptor) : Decidable (b.SizesFit d) := by
  cases b <;> unfold SizesFit <;> infer_instance

def layout : Discrete → Layout
  | uxrom => .even 2 1
  | _ => .even 1 1

/-- The selections wired in at power-on. -/
def powerOn : Discrete → List Select
  | uxrom => [.prgFromEnd 1 0]
  | axrom => [.mirroring .singleA]
  | _ => []

def start? (b : Discrete) (d : Descriptor) : Option (Reply Discrete) :=
  if d.isAnyOf b.boards ∧ b.SizesFit d then some { registers := b, selects := b.powerOn }
  else none

/-- The selections made by a byte written to program memory. -/
def latch (b : Discrete) (value : UInt8) : List Select :=
  let v := value.toNat
  match b with
  | nrom => []
  | uxrom => [.prg 0 v]
  | cnrom => [.chr 0 v]
  | axrom => [.prg 0 (v % 16), .mirroring (.ofScreenBit (v.testBit 4))]
  | colorDreams => [.prg 0 (v % 4), .chr 0 (v / 16)]
  | gxrom => [.chr 0 (v % 4), .prg 0 (v / 16 % 4)]

def write (b : Discrete) (addr : Nat) (value : UInt8) : Reply Discrete :=
  { registers := b, selects := if addr < 0x8000 then [] else b.latch value }

end Discrete

end GamePak
