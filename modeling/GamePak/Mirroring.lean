/-!
Nametable arrangements. Four logical nametables are seen by the picture unit at 2000, 2400,
2800 and 2C00 (hexadecimal); the arrangement says which physical page backs each of them.
-/

namespace GamePak

inductive Mirroring where
  | horizontal
  | vertical
  | singleA
  | singleB
  | fourScreen
  deriving DecidableEq

namespace Mirroring

/-- The physical page behind a logical nametable; table numbers repeat after four. -/
def page (m : Mirroring) (table : Nat) : Nat :=
  match m with
  | horizontal => table % 4 / 2
  | vertical => table % 2
  | singleA => 0
  | singleB => 1
  | fourScreen => table % 4

theorem page_lt_four (m : Mirroring) (table : Nat) : m.page table < 4 := by
  cases m <;> simp only [page] <;> omega

theorem page_add_four (m : Mirroring) (table : Nat) : m.page (table + 4) = m.page table := by
  cases m <;> simp only [page] <;> omega

/-- The two arrangements of a board that has one mirroring bit. -/
def ofBit (horizontal : Bool) : Mirroring :=
  if horizontal then .horizontal else .vertical

/-- One screen for all four tables, the second page if the bit is set. -/
def ofScreenBit (second : Bool) : Mirroring :=
  if second then singleB else singleA

/-- The usual two-bit mirroring register: vertical, horizontal, then the single screens. -/
def ofRegister (value : UInt8) : Mirroring :=
  match value.toNat % 4 with
  | 0 => vertical
  | 1 => .horizontal
  | 2 => singleA
  | _ => singleB

/-- The name of an arrangement in written records. -/
def name : Mirroring → String
  | horizontal => "Horizontal"
  | vertical => "Vertical"
  | singleA => "SingleScreenA"
  | singleB => "SingleScreenB"
  | fourScreen => "FourScreen"

def all : List Mirroring := [horizontal, vertical, singleA, singleB, fourScreen]

def ofName? (s : String) : Option Mirroring := all.find? (·.name == s)

theorem ofName?_name (m : Mirroring) : ofName? m.name = some m := by
  cases m <;> rfl

end Mirroring

end GamePak
