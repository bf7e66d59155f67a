import GamePak.Descriptor

/-!
Reasons for which a cartridge or its save RAM cannot be loaded, and their wording.
-/

namespace GamePak

def Descriptor.Flaw.reason : Descriptor.Flaw → String
  | prgSize => "PRG size must be a power of two of at least 8 KiB"
  | chrSize => "CHR size must be a non-zero power of two"
  | wramSize => "WRAM size must be zero or a power of two"
  | battery => "battery backed carts need WRAM"

/-- The two ROM images that a loader supplies. -/
inductive RomImage where
  | prg
  | chr
  deriving DecidableEq

def RomImage.label : RomImage → String
  | prg => "PRG"
  | chr => "CHR"

inductive LoadError where
  | invalidDescriptor (board : String) (flaw : Descriptor.Flaw)
  | imageSize (image : RomImage) (expected found : Nat)
  | unknownBoard (board : String)
  | saveSize (expected found : Nat)
  deriving DecidableEq

def LoadError.message : LoadError → String
  | invalidDescriptor board flaw => s!"invalid board descriptor for {board}: " ++ flaw.reason
  | imageSize image expected found =>
    image.label ++ s!" buffer is {found} bytes, descriptor says {expected}"
  | unknownBoard board => s!"board {board} not implemented, game can't be loaded correctly"
  | saveSize expected found => s!"save ram is {found} bytes, cart has {expected}"

end GamePak
