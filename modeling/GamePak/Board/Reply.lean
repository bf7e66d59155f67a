import GamePak.Banks
import GamePak.Note

/-!
What a board answers with. A register write leaves new registers, a list of bank selections and
perhaps a note; it never changes a memory. The 8 KiB below program memory show one of five
things, by board and registers.
-/

namespace GamePak

structure Reply (α : Type) where
  registers : α
  selects : List Select := []
  notes : List Note := []

def Reply.map {α β : Type} (f : α → β) (r : Reply α) : Reply β :=
  { registers := f r.registers, selects := r.selects, notes := r.notes }

/-- What the CPU finds from 6000 to 7FFF. -/
inductive WorkArea where
  /-- Work RAM, if there is any. -/
  | ram
  /-- Work RAM that ignores writes, if there is any. -/
  | lockedRam
  /-- A register of the board. -/
  | register
  /-- A page of program memory. -/
  | rom
  /-- Nothing. -/
  | closed
  deriving DecidableEq

end GamePak
