import GamePak.Fault

/-!
Atoms: the items that a value is written as. An atom begins with a byte that holds its kind and the
low bits of an argument, and further bytes of the argument may follow. Text that occurs often
may be written once as a symbol and referred to by number afterwards.

Past the end of the bytes zeros are read, so that an atom is found there too; only a text has to be
there in full.
-/

namespace GamePak

/-- Why bytes do not give a value. -/
inductive ReadError where
  /-- They are not written as the value has to be. -/
  | malformed
  | fault (f : Fault)
  deriving DecidableEq

inductive Atom where
  | absent
  | unit
  | flag (b : Bool)
  /-- Marks the next atom as the name of an alternative. -/
  | named
  /-- Begins a map that says where it ends. -/
  | openMap
  | closeMap
  /-- An integer, and the size in bytes of the word that holds it. -/
  | int (size : Nat) (n : Int)
  /-- A number with a fraction, as it stands. -/
  | float (bytes : List UInt8)
  | list (length : Nat)
  | map (length : Nat)
  /-- A text that takes the next number. -/
  | symbol (bytes : List UInt8)
  /-- The symbol with a number. -/
  | reference (id : Nat)
  | text (bytes : List UInt8)
  deriving DecidableEq

namespace Atom

/-! ## Arguments -/

/-- Arguments are words of 64 bits. -/
def argumentBound : Nat := 1 <<< 64

/-- The argument bits after the first byte, seven to a byte, the low ones first. At most `left`
bytes are taken, the last of them whatever it says about more. -/
def readMore : Nat → List UInt8 → Nat × List UInt8
  | 0, bytes => (0, bytes)
  | _ + 1, [] => (0, [])
  | left + 1, b :: rest =>
    if b < 128 then (b.toNat, rest)
    else
      let (n, rest) := readMore left rest
      (b.toNat % 128 + 128 * n, rest)

/-- The argument of an atom whose first byte is `head`. -/
def readArgument (head : UInt8) (bytes : List UInt8) : Nat × List UInt8 :=
  if head.toNat.testBit 4 then
    let (n, rest) := readMore 9 bytes
    ((head.toNat % 16 + 16 * n) % argumentBound, rest)
  else (head.toNat % 16, bytes)

def writeMore (n : Nat) : List UInt8 :=
  if n < 128 then [UInt8.ofNat n] else UInt8.ofNat (n % 128 + 128) :: writeMore (n / 128)

/-- The first bytes of an atom, kind and argument. -/
def writeHead (kind argument : Nat) : List UInt8 :=
  if argument < 16 then [UInt8.ofNat (kind * 32 + argument)]
  else UInt8.ofNat (kind * 32 + 16 + argument % 16) :: writeMore (argument / 16)

/-! ## Numbers -/

/-- A number from its bytes, the low one first; missing bytes are zero. -/
def ofBytes (bytes : List UInt8) : Nat := bytes.foldr (fun b n => b.toNat + 256 * n) 0

def toBytes : Nat → Nat → List UInt8
  | 0, _ => []
  | width + 1, n => UInt8.ofNat (n % 256) :: toBytes width (n / 256)

/-- How many numbers so many bytes can tell apart. -/
def capacity (width : Nat) : Nat := 1 <<< (8 * width)

/-- The width of a number is one more than the argument, and a word itself. -/
def readWidth (argument : Nat) : Except ReadError Nat :=
  if argument + 1 = argumentBound then .error (.fault .countOutOfRange) else .ok (argument + 1)

/-- The size of the word that holds a number of a given width. -/
def wordSize? : Nat → Option Nat
  | 1 => some 1
  | 2 => some 2
  | 3 => some 4
  | 4 => some 4
  | 6 => some 8
  | 8 => some 8
  | 16 => some 16
  | _ => none

/-- An integer of a given width, in two's complement if it is signed. -/
def readInt (signed : Bool) (width : Nat) (bytes : List UInt8) :
    Except ReadError (Atom × List UInt8) :=
  match wordSize? width with
  | none => .error .malformed
  | some size =>
    let n := ofBytes (bytes.take width)
    .ok (int size (if signed ∧ capacity width ≤ 2 * n then (n : Int) - capacity width else n),
      bytes.drop width)

def readFloat (width : Nat) (bytes : List UInt8) : Except ReadError (Atom × List UInt8) :=
  if width = 2 ∨ width = 4 ∨ width = 8 then .ok (float (bytes.take width), bytes.drop width)
  else .error .malformed

/-- The widths in which integers are written. -/
def widths : List Nat := [1, 2, 3, 4, 6, 8]

/-- The least width that holds an integer. -/
def widthOf (n : Int) : Nat :=
  let fits (w : Nat) : Bool := if 0 ≤ n then n < capacity w else -(capacity w : Int) ≤ 2 * n
  (widths.find? fits).getD 8

def ofInt (n : Int) : Atom := int ((wordSize? (widthOf n)).getD 8) n

def writeInt (n : Int) : List UInt8 :=
  let width := widthOf n
  writeHead (if 0 ≤ n then 2 else 1) (width - 1) ++ toBytes width (n % capacity width).toNat

/-! ## Text -/

/-- The bytes of a text of a given length. -/
def readText (length : Nat) (bytes : List UInt8) : Except ReadError (List UInt8 × List UInt8) :=
  let first := bytes.take length
  if first.length = length then .ok (first, bytes.drop length) else .error .malformed

def utf8 (s : String) : List UInt8 := s.toUTF8.data.toList

def ofText (s : String) : Atom := text (utf8 s)

def ofSymbol (s : String) : Atom := symbol (utf8 s)

/-- A symbol: an even argument is twice the length of a new one, which follows; an odd one is a
reference. -/
def readSymbol (argument : Nat) (bytes : List UInt8) : Except ReadError (Atom × List UInt8) :=
  if argument % 2 = 0 then do
    let (first, rest) ← readText (argument / 2) bytes
    return (symbol first, rest)
  else .ok (reference (argument / 2), bytes)

/-! ## Atoms -/

def special? : Nat → Option Atom
  | 0 => some absent
  | 1 => some unit
  | 2 => some (flag false)
  | 3 => some (flag true)
  | 4 => some named
  | 5 => some openMap
  | 6 => some closeMap
  | _ => none

/-- The argument that tells an atom without contents from the others of its kind. -/
def specialArgument? : Atom → Option Nat
  | absent => some 0
  | unit => some 1
  | flag false => some 2
  | flag true => some 3
  | named => some 4
  | openMap => some 5
  | closeMap => some 6
  | _ => none

theorem special?_eq_some_iff {argument : Nat} {a : Atom} :
    special? argument = some a ↔ a.specialArgument? = some argument := by
  constructor
  · intro h
    unfold special? at h
    split at h <;> cases h <;> rfl
  · intro h
    unfold specialArgument? at h
    split at h <;> cases h <;> rfl

/-- The contents of an atom whose kind and argument are known. -/
def readBody (kind argument : Nat) (bytes : List UInt8) :
    Except ReadError (Atom × List UInt8) :=
  match kind with
  | 0 =>
    match special? argument with
    | some a => .ok (a, bytes)
    | none => .error .malformed
  | 1 => do readInt true (← readWidth argument) bytes
  | 2 => do readInt false (← readWidth argument) bytes
  | 3 => do readFloat (← readWidth argument) bytes
  | 4 => .ok (list argument, bytes)
  | 5 => .ok (map argument, bytes)
  | 6 => readSymbol argument bytes
  | _ => do
    let (first, rest) ← readText argument bytes
    return (text first, rest)

/-- One atom and the bytes after it. -/
def read (bytes : List UInt8) : Except ReadError (Atom × List UInt8) :=
  let head := bytes.headD 0
  let (argument, rest) := readArgument head bytes.tail
  readBody (head.toNat / 32) argument rest

def write : Atom → List UInt8
  | absent => writeHead 0 0
  | unit => writeHead 0 1
  | flag b => writeHead 0 (if b then 3 else 2)
  | named => writeHead 0 4
  | openMap => writeHead 0 5
  | closeMap => writeHead 0 6
  | int _ n => writeInt n
  | float bytes => writeHead 3 (bytes.length - 1) ++ bytes
  | list length => writeHead 4 length
  | map length => writeHead 5 length
  | symbol bytes => writeHead 6 (2 * bytes.length) ++ bytes
  | reference id => writeHead 6 (2 * id + 1)
  | text bytes => writeHead 7 bytes.length ++ bytes

/-! ## Reading shortens the input -/

theorem length_readMore (left : Nat) (bytes : List UInt8) :
    (readMore left bytes).2.length ≤ bytes.length := by
  induction left generalizing bytes with
  | zero => simp [readMore]
  | succ left ih =>
    cases bytes with
    | nil => simp [readMore]
    | cons b bytes =>
      rw [readMore]
      split
      · simp
      · have := ih bytes
        simp only [List.length_cons]
        omega

theorem length_readArgument (head : UInt8) (bytes : List UInt8) :
    (readArgument head bytes).2.length ≤ bytes.length := by
  unfold readArgument
  split
  · exact length_readMore 9 bytes
  · simp

theorem length_readInt {signed : Bool} {width : Nat} {a : Atom} {bytes rest : List UInt8}
    (h : readInt signed width bytes = .ok (a, rest)) : rest.length ≤ bytes.length := by
  unfold readInt at h
  split at h
  · cases h
  · simp only [Except.ok.injEq, Prod.mk.injEq] at h
    simp [← h.2]

theorem length_readFloat {width : Nat} {a : Atom} {bytes rest : List UInt8}
    (h : readFloat width bytes = .ok (a, rest)) : rest.length ≤ bytes.length := by
  unfold readFloat at h
  split at h
  · simp only [Except.ok.injEq, Prod.mk.injEq] at h
    simp [← h.2]
  · cases h

theorem length_readText {length : Nat} {first bytes rest : List UInt8}
    (h : readText length bytes = .ok (first, rest)) : rest.length ≤ bytes.length := by
  simp only [readText] at h
  split at h
  · simp only [Except.ok.injEq, Prod.mk.injEq] at h
    simp [← h.2]
  · cases h

theorem length_readSymbol {argument : Nat} {a : Atom} {bytes rest : List UInt8}
    (h : readSymbol argument bytes = .ok (a, rest)) : rest.length ≤ bytes.length := by
  unfold readSymbol at h
  split at h
  · simp only [bind, Except.bind, pure, Except.pure] at h
    split at h
    · cases h
    · rename_i found hfound
      simp only [Except.ok.injEq, Prod.mk.injEq] at h
      exact h.2 ▸ length_readText hfound
  · simp only [Except.ok.injEq, Prod.mk.injEq] at h
    simp [← h.2]

theorem length_readBody {kind argument : Nat} {a : Atom} {bytes rest : List UInt8}
    (h : readBody kind argument bytes = .ok (a, rest)) : rest.length ≤ bytes.length := by
  unfold readBody at h
  split at h
  · split at h
    · simp only [Except.ok.injEq, Prod.mk.injEq] at h
      simp [← h.2]
    · cases h
  · simp only [bind, Except.bind] at h
    split at h
    · cases h
    · exact length_readInt h
  · simp only [bind, Except.bind] at h
    split at h
    · cases h
    · exact length_readInt h
  · simp only [bind, Except.bind] at h
    split at h
    · cases h
    · exact length_readFloat h
  · simp only [Except.ok.injEq, Prod.mk.injEq] at h
    simp [← h.2]
  · simp only [Except.ok.injEq, Prod.mk.injEq] at h
    simp [← h.2]
  · exact length_readSymbol h
  · simp only [bind, Except.bind, pure, Except.pure] at h
    split at h
    · cases h
    · rename_i found hfound
      simp only [Except.ok.injEq, Prod.mk.injEq] at h
      exact h.2 ▸ length_readText hfound

theorem read_nil : read [] = .ok (absent, []) := rfl

theorem length_read_cons {b : UInt8} {a : Atom} {bytes rest : List UInt8}
    (h : read (b :: bytes) = .ok (a, rest)) : rest.length ≤ bytes.length :=
  Nat.le_trans (length_readBody h) (length_readArgument b bytes)

/-- Every atom but the zeros past the end takes up bytes. -/
theorem length_read {a : Atom} {bytes rest : List UInt8} (h : read bytes = .ok (a, rest))
    (ha : a ≠ absent) : rest.length < bytes.length := by
  cases bytes with
  | nil =>
    rw [read_nil] at h
    simp only [Except.ok.injEq, Prod.mk.injEq] at h
    exact absurd h.1.symm ha
  | cons b bytes => exact Nat.lt_succ_of_le (length_read_cons h)

end Atom

end GamePak
