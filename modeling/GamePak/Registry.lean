import GamePak.Board

/-!
The registry of boards. The kinds are tried in order and the first that fits a descriptor is
taken, with one note for each that does not. Mapper numbers have names of their own.
-/

namespace GamePak

namespace Registry

/-- All kinds of board, in the order in which they are tried. -/
def kinds : List BoardKind :=
  [.discrete .nrom, .mmc1, .discrete .uxrom, .discrete .cnrom, .mmc3, .discrete .axrom, .mmc2,
    .discrete .colorDreams, .fcg, .vrc4, .discrete .gxrom, .fme7, .codemasters, .vrc3]

/-- The first of the given kinds that fits. Each candidate gets fresh windows of its own layout, and
the one that fits makes its first selections in them. -/
def configureFrom (d : Descriptor) :
    List BoardKind → Except Fault (Noted (Option (Board × Banks)))
  | [] => return { value := none }
  | k :: rest => do
    let banks ← Banks.powerOn d k.layout
    match k.start? d with
    | some start =>
      return { value := some (start.registers, ← banks.applyAll start.selects) }
    | none =>
      let later ← configureFrom d rest
      return { later with notes := .misfit k.name d.board :: later.notes }

/-- The board of a descriptor, with its banks. -/
def configure (d : Descriptor) : Except Fault (Noted (Option (Board × Banks))) :=
  configureFrom d kinds

def mapperNames : List (UInt16 × String) :=
  [(0, "NRom"), (1, "MMC1"), (2, "UxRom"), (3, "CNRom (INesMapper003)"), (4, "MMC3"),
    (7, "AxRom"), (9, "MMC2"), (11, "ColorDreams"), (16, "Bandai FCG"), (21, "VRC4a/VRC4c"),
    (22, "VRC2a"), (23, "VRC2b/VRC4e"), (25, "VRC2c/VRC4b/VRC4d"), (66, "GxRom"),
    (69, "Sunsoft FME-7"), (71, "Codemasters (INesMapper071)"), (73, "VRC3")]

/-- The name of a mapper; a cartridge without a number, or with an unlisted one, is a named
board. -/
def mapperName (mapper : Option UInt16) : String :=
  (mapper.bind fun m => mapperNames.lookup m).getD "named board"

end Registry

end GamePak
