import GamePak.Fault
import GamePak.PowerOfTwo

/-!
Bank windows. A window is a stretch of an address space cut into pages of one size; each page
shows one bank of a buffer behind it. Bank numbers are masked when a page is selected, and
offsets when an address is resolved, so sizes have to be powers of two. A buffer smaller
than a page repeats inside it.
-/

namespace GamePak

structure Window where
  /-- Bytes in the buffer. -/
  size : Nat
  /-- First address of the window. -/
  start : Nat
  /-- Binary logarithm of the page size. -/
  shift : Nat
  /-- One less than the number of banks. -/
  bankMask : Nat
  /-- Address bits that pass through a page. -/
  offsetMask : Nat
  /-- The bank shown by each page. -/
  pages : List Nat
  deriving DecidableEq

namespace Window

/-- Every window has fewer pages than this: the bank of a page takes eight bytes. -/
def pageLimit : Nat := memoryLimit / 8

/-- A window of `pages` pages onto a buffer of `size` bytes, every page showing bank zero. -/
def create (size start pageSize pages : Nat) : Except Fault Window :=
  if ¬ IsPowerOfTwo pageSize then .error (.pageSize pageSize)
  else if size ≠ 0 ∧ ¬ IsPowerOfTwo size then .error (.dataSize size)
  else if pageLimit ≤ pages then .error (.tooManyPages pages)
  else .ok {
    size
    start
    shift := pageSize.log2
    bankMask := max (size / pageSize) 1 - 1
    offsetMask := min pageSize size - 1
    pages := List.replicate pages 0 }

def isEmpty (w : Window) : Bool := w.size == 0

def bankCount (w : Window) : Nat := w.bankMask + 1

def lastBank (w : Window) : Nat := w.bankMask

def pageCount (w : Window) : Nat := w.pages.length

/-- The bank shown by a page. -/
def bank (w : Window) (page : Nat) : Except Fault Nat :=
  match w.pages[page]? with
  | some b => .ok b
  | none => .error (.pageOutOfRange page w.pageCount)

/-- Shows a bank in a page; only as many bits of the number count as there are banks. -/
def select (w : Window) (page bank : Nat) : Except Fault Window :=
  if page < w.pageCount then .ok { w with pages := w.pages.set page (bank &&& w.bankMask) }
  else .error (.pageOutOfRange page w.pageCount)

/-- Shows the bank that lies `back` banks before the last one, or bank zero if there are not
so many. -/
def selectFromEnd (w : Window) (page back : Nat) : Except Fault Window :=
  w.select page (w.lastBank - back)

/-- Shows the bank that lies `back` banks before the last one, which there have to be. -/
def selectBefore (w : Window) (page back : Nat) : Except Fault Window :=
  if back ≤ w.lastBank then w.select page (w.lastBank - back)
  else .error (.noSuchBank back w.lastBank)

/-- Selects all pages at once; the list has to name a bank for each page. -/
def restore? (w : Window) (banks : List Nat) : Option Window :=
  if banks.length = w.pageCount then some { w with pages := banks.map (· &&& w.bankMask) }
  else none

/-- The buffer offset of an address within a given page. -/
def offset (w : Window) (page addr : Nat) : Except Fault Nat := do
  let b ← w.bank page
  return (b <<< w.shift) ||| (addr &&& w.offsetMask)

/-- The buffer offset that an address of the window reaches. -/
def resolve (w : Window) (addr : Nat) : Except Fault Nat :=
  if addr < w.start then .error (.belowWindow addr w.start)
  else w.offset ((addr - w.start) >>> w.shift) addr

end Window

end GamePak
