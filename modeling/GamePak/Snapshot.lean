import GamePak.Cartridge

/-!
Snapshots: everything about a cartridge that can change, together with the descriptor it was
taken from. Window geometry is not part of a snapshot; restoring configures the board afresh
and then puts back registers, page selections and work RAM. A snapshot that does not belong to
the cartridge is refused, and the cartridge stays as it was.
-/

namespace GamePak

structure Snapshot where
  version : Nat
  descriptor : Descriptor
  prgPages : List Nat
  chrPages : List Nat
  wramPages : List Nat
  nametablePages : List Nat
  mirroring : Mirroring
  wram : Memory
  board : Board

/-- The version that is written and the only one that is read. -/
def Snapshot.currentVersion : Nat := 1

/-- The parts of a snapshot whose shape has to suit the cartridge. -/
inductive Snapshot.Part where
  | board
  | prg
  | chr
  | wram
  | nametable
  deriving DecidableEq

def Snapshot.Part.label : Snapshot.Part → String
  | board => "board"
  | prg => "PRG"
  | chr => "CHR"
  | wram => "WRAM"
  | nametable => "nametable"

inductive RestoreError where
  /-- The bytes do not hold a snapshot. -/
  | malformed
  | version (found : Nat)
  | descriptor
  | board (found expected : String)
  | layout (part : Snapshot.Part)
  deriving DecidableEq

def RestoreError.message : RestoreError → String
  | malformed => "malformed snapshot"
  | version found => s!"snapshot version {found}, expected {Snapshot.currentVersion}"
  | descriptor => "snapshot was taken from a different cartridge"
  | board found expected => s!"snapshot holds a {found} board, cartridge is {expected}"
  | layout part => "snapshot " ++ part.label ++ " layout doesn't match the cartridge"

namespace Cartridge

def snapshot (c : Cartridge) : Snapshot where
  version := Snapshot.currentVersion
  descriptor := c.descriptor
  prgPages := c.banks.prg.pages
  chrPages := c.banks.chr.pages
  wramPages := c.banks.wram.pages
  nametablePages := c.banks.nametables.pages
  mirroring := c.banks.mirroring
  wram := c.wram
  board := c.board

end Cartridge

namespace Snapshot

/-- Puts the page selections of a snapshot into freshly configured banks that have its
arrangement already. -/
def restoreBanks (s : Snapshot) (fresh : Banks) : Except RestoreError Banks :=
  match fresh.prg.restore? s.prgPages with
  | none => .error (.layout .prg)
  | some prg =>
    match fresh.chr.restore? s.chrPages with
    | none => .error (.layout .chr)
    | some chr =>
      match fresh.wram.restore? s.wramPages with
      | none => .error (.layout .wram)
      | some wram =>
        match fresh.nametables.restore? s.nametablePages with
        | none => .error (.layout .nametable)
        | some nametables => .ok { fresh with prg, chr, wram, nametables }

end Snapshot

namespace Cartridge

/-- Replaces the state of a cartridge by that of a snapshot, given the board and banks that the
cartridge had at power-on, the banks in the arrangement of the snapshot. -/
def install (c : Cartridge) (s : Snapshot) (fresh : Board) (banks : Banks) :
    Except RestoreError Cartridge :=
  if s.board.name ≠ fresh.name then .error (.board s.board.name fresh.name)
  else if ¬ s.board.Valid then .error (.layout .board)
  else match s.restoreBanks banks with
  | .error e => .error e
  | .ok banks =>
    if s.wram.size ≠ c.wram.size then .error (.layout .wram)
    else .ok { c with banks, board := s.board, wram := s.wram }

def restore (c : Cartridge) (s : Snapshot) :
    Except Fault (Noted (Except RestoreError Cartridge)) :=
  if s.version ≠ Snapshot.currentVersion then return { value := .error (.version s.version) }
  else if s.descriptor ≠ c.descriptor then return { value := .error .descriptor }
  else do
    let found ← Registry.configure c.descriptor
    match found.value with
    | none => return { value := .error .descriptor, notes := found.notes }
    | some (fresh, banks) =>
      return {
        value := c.install s fresh (← banks.setMirroring s.mirroring)
        notes := found.notes }

end Cartridge

end GamePak
