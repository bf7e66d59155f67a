/-!
Faults: the accesses and the arithmetic that the cartridge hardware gives no meaning to.
Every operation that could meet one returns `Except Fault`, so that freedom from faults is
a statement about its result. Counts are advanced by the checked steps below, which refuse
to leave the word that holds them.
-/

namespace GamePak

/-- Every memory has fewer bytes than this, so that the distance between two of its bytes is a
signed word of 64 bits. -/
def memoryLimit : Nat := 1 <<< 63

inductive Fault where
  /-- A page size that is not a power of two. -/
  | pageSize (size : Nat)
  /-- A buffer size that is neither zero nor a power of two. -/
  | dataSize (size : Nat)
  /-- A window to be cut into no pages at all. -/
  | noPages
  /-- A window with more pages than a memory can keep banks for. -/
  | tooManyPages (pages : Nat)
  /-- A memory of more bytes than any can have. -/
  | memoryTooLarge (size : Nat)
  /-- A bank counted back from the last one, past the first. -/
  | noSuchBank (back last : Nat)
  /-- A page number that the window does not have. -/
  | pageOutOfRange (page pages : Nat)
  /-- An address below the first page of the window. -/
  | belowWindow (addr start : Nat)
  /-- An offset past the end of a memory. -/
  | offsetOutOfRange (offset size : Nat)
  /-- A count that would leave its word. -/
  | countOutOfRange
  deriving DecidableEq

/-- Two operations in a row succeed exactly if both of them do. -/
theorem Fault.bind_eq_ok_iff {α β : Type} {first : Except Fault α} {next : α → Except Fault β}
    {result : β} :
    first >>= next = .ok result ↔ ∃ value, first = .ok value ∧ next value = .ok result := by
  cases first <;> simp [bind, Except.bind]

/-- What is known of some result of an operation is known of the one that it had. -/
theorem Fault.of_exists_ok {α : Type} {P : α → Prop} {operation : Except Fault α} {result : α}
    (h : ∃ value, operation = .ok value ∧ P value) (hresult : operation = .ok result) :
    P result := by
  obtain ⟨value, hvalue, hp⟩ := h
  rw [hresult] at hvalue
  cases hvalue
  exact hp

namespace Count

/-- The next value of a byte; the highest byte has none. -/
def nextByte (n : UInt8) : Except Fault UInt8 :=
  if n = 0xFF then .error .countOutOfRange else .ok (n + 1)

/-- The next value of a sixteen-bit word; the highest word has none. -/
def next (n : UInt16) : Except Fault UInt16 :=
  if n = 0xFFFF then .error .countOutOfRange else .ok (n + 1)

/-- The previous value of a sixteen-bit word; zero has none. -/
def prev (n : UInt16) : Except Fault UInt16 :=
  if n = 0 then .error .countOutOfRange else .ok (n - 1)

/-- A difference that has to fit a signed sixteen-bit word. -/
def subSigned (n k : Int) : Except Fault Int :=
  if n - k < -32768 then .error .countOutOfRange else .ok (n - k)

end Count

end GamePak
