/-!
Notes: the events that loading, register writes and restoring report beside their results,
in the order in which they happen.
-/

namespace GamePak

inductive Note where
  /-- A candidate board turned a descriptor down. -/
  | misfit (candidate board : String)
  | loaded (board name mapperName : String)
  /-- A mirroring write on an MMC3 board whose four screens are wired. -/
  | fixedMirroring
  /-- A write to the serial memory of a Bandai board, which is not connected. -/
  | eepromWrite (value : UInt8)
  /-- A snapshot of so many bytes was taken. -/
  | restored (name : String) (length : Nat)
  deriving DecidableEq

namespace Note

def level : Note → String
  | misfit .. => "TRACE"
  | loaded .. => "INFO"
  | fixedMirroring => "DEBUG"
  | eepromWrite _ => "DEBUG"
  | restored .. => "DEBUG"

/-- A byte as two upper-case hexadecimal digits. -/
def hexByte (value : UInt8) : String :=
  let digit (n : Nat) : Char := Char.ofNat (if n < 10 then 48 + n else 55 + n)
  String.ofList [digit (value.toNat / 16), digit (value.toNat % 16)]

def text : Note → String
  | misfit candidate board => s!"{candidate} does not fit {board}"
  | loaded board name mapperName => s!"Loaded {board} as {name} ({mapperName})"
  | fixedMirroring => "MMC3 mirroring write on a four screen board"
  | eepromWrite value => "Bandai EEPROM write " ++ hexByte value ++ " ignored"
  | restored name length => s!"Restored {name} snapshot ({length} bytes)"

def line (n : Note) : String := n.level ++ " " ++ n.text

end Note

/-- A result together with the notes made on the way to it. -/
structure Noted (α : Type) where
  value : α
  notes : List Note := []

end GamePak
