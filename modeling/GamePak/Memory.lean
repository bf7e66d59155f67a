import GamePak.Descriptor
import GamePak.Fault

/-!
Byte memories, and the video memory that the picture unit lends to the cartridge on every access.
-/

namespace GamePak

abbrev Memory := Array UInt8

namespace Memory

def zeroed (size : Nat) : Memory := Array.replicate size 0

/-- A cleared memory, if there can be one of the size. -/
def allocate (size : Nat) : Except Fault Memory :=
  if memoryLimit ≤ size then .error (.memoryTooLarge size) else .ok (.zeroed size)

def load (m : Memory) (offset : Nat) : Except Fault UInt8 :=
  match m[offset]? with
  | some value => .ok value
  | none => .error (.offsetOutOfRange offset m.size)

def store (m : Memory) (offset : Nat) (value : UInt8) : Except Fault Memory :=
  if h : offset < m.size then .ok (m.set offset value h)
  else .error (.offsetOutOfRange offset m.size)

end Memory

structure VideoMemory where
  /-- Pattern RAM, empty for a cartridge with pattern ROM. -/
  patterns : Memory
  /-- Four nametables, enough for every arrangement. -/
  nametables : Memory

/-- Cleared video memory for a cartridge. -/
def VideoMemory.cleared (d : Descriptor) : VideoMemory where
  patterns := .zeroed (if d.usesChrRam then d.chrRamSize else 0)
  nametables := .zeroed (4 * 1024)

end GamePak
