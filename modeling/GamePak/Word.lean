/-!
Sixteen-bit words that are written one byte or one nibble at a time.
-/

namespace GamePak.Word

/-- Replaces the high byte. -/
def setHigh (word : UInt16) (byte : UInt8) : UInt16 := word % 256 + byte.toUInt16 * 256

/-- Replaces the low byte. -/
def setLow (word : UInt16) (byte : UInt8) : UInt16 := word / 256 * 256 + byte.toUInt16

/-- Replaces one of the four nibbles, counted from the low end, by the low nibble of a byte. -/
def setNibble (word : UInt16) (index : Nat) (byte : UInt8) : UInt16 :=
  let unit := UInt16.ofNat (1 <<< (4 * index))
  word / unit / 16 * 16 * unit + byte.toUInt16 % 16 * unit + word % unit

end GamePak.Word
