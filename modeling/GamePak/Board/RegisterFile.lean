/-!
Register files: eight registers of one kind, addressed by number. Only the three low bits of a
number are wired, so numbers repeat after eight.
-/

namespace GamePak

abbrev RegisterFile (α : Type) := Vector α 8

namespace RegisterFile

variable {α : Type}

/-- The register that a number names. -/
def index (n : Nat) : Fin 8 := Fin.ofNat 8 n

def read (file : RegisterFile α) (n : Nat) : α := file[index n]

def write (file : RegisterFile α) (n : Nat) (a : α) : RegisterFile α := file.set (index n) a

theorem read_write (file : RegisterFile α) (m n : Nat) (a : α) :
    (file.write m a).read n = if index m = index n then a else file.read n := by
  simp only [read, write, Fin.getElem_fin, Vector.getElem_set, Fin.ext_iff]

end RegisterFile

end GamePak
