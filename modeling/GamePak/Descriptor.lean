import GamePak.Mirroring
import GamePak.PowerOfTwo

/-!
Descriptors: what is known of a cartridge before it is plugged in. The board is given either
by the part name printed on it or by the generic name of a mapper number, and the sizes say how
much memory it carries. A descriptor can be checked, board apart, for the facts that let every
address be resolved.
-/

namespace GamePak

structure Descriptor where
  /-- Part name, or the generic name of a mapper number. -/
  board : String
  submapper : UInt8 := 0
  prgSize : Nat
  /-- Zero for a cartridge that carries pattern RAM in place of pattern ROM. -/
  chrSize : Nat
  chrRamSize : Nat
  wramSize : Nat := 0
  battery : Bool := false
  /-- The arrangement soldered on the board. -/
  mirroring : Mirroring := .horizontal
  deriving DecidableEq

/-! ## Mapper numbers -/

namespace MapperName

/-- What every generic board name begins with. -/
def lead : List Char := ['M', 'A', 'P', 'P', 'E', 'R']

/-- The generic name of a mapper: at least three decimal digits after the lead. -/
def ofNumber (mapper : UInt16) : String :=
  let digits := Nat.toDigits 10 mapper.toNat
  String.ofList (lead ++ List.replicate (3 - digits.length) '0' ++ digits)

/-- A number with one more digit at its end, as long as it fits sixteen bits. -/
def pushDigit? (value : UInt16) (c : Char) : Option UInt16 :=
  let next := 10 * value.toNat + (c.toNat - '0'.toNat)
  if c.isDigit ∧ next < 65536 then some (UInt16.ofNat next) else none

/-- A nonempty run of decimal digits, given up where a character is none or the number gets too
large. -/
def readDigits? : List Char → Option UInt16
  | [] => none
  | digits => digits.foldlM pushDigit? 0

/-- A number with at most one plus sign in front. -/
def readNumber? : List Char → Option UInt16
  | '+' :: digits => readDigits? digits
  | digits => readDigits? digits

/-- The mapper number in a generic board name. -/
def number? (board : String) : Option UInt16 :=
  if lead.isPrefixOf board.toList then readNumber? (board.toList.drop lead.length) else none

end MapperName

namespace Descriptor

/-- A cartridge with a named board; one without pattern ROM gets 8 KiB of pattern RAM. -/
def named (board : String) (prgSize chrSize : Nat) : Descriptor where
  board
  prgSize
  chrSize
  chrRamSize := if chrSize = 0 then 8 * 1024 else 0

/-- A cartridge known by its mapper number only. -/
def generic (mapper : UInt16) (prgSize chrSize : Nat) : Descriptor :=
  named (MapperName.ofNumber mapper) prgSize chrSize

def mapper? (d : Descriptor) : Option UInt16 := MapperName.number? d.board

def usesChrRam (d : Descriptor) : Bool := d.chrSize == 0

/-- Bytes of pattern memory, ROM or RAM. -/
def patternSize (d : Descriptor) : Nat := if d.usesChrRam then d.chrRamSize else d.chrSize

def isAnyOf (d : Descriptor) (boards : List String) : Bool := boards.contains d.board

/-- What can be wrong with a descriptor. -/
inductive Flaw where
  | prgSize
  | chrSize
  | wramSize
  | battery
  deriving DecidableEq

/-- The first flaw of a descriptor, program memory before pattern memory before work RAM. -/
def flaw? (d : Descriptor) : Option Flaw :=
  if d.prgSize < 8 * 1024 ∨ ¬ IsPowerOfTwo d.prgSize then some .prgSize
  else if ¬ IsPowerOfTwo d.patternSize then some .chrSize
  else if d.wramSize ≠ 0 ∧ ¬ IsPowerOfTwo d.wramSize then some .wramSize
  else if d.battery ∧ d.wramSize = 0 then some .battery
  else none

def Valid (d : Descriptor) : Prop := d.flaw? = none

instance (d : Descriptor) : Decidable d.Valid := inferInstanceAs (Decidable (d.flaw? = none))

end Descriptor

end GamePak
