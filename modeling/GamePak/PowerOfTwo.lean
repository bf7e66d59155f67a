/-!
Powers of two, as a decidable property of a size.
-/

namespace GamePak

abbrev IsPowerOfTwo (n : Nat) : Prop := 1 <<< n.log2 = n

theorem isPowerOfTwo_one_shiftLeft (k : Nat) : IsPowerOfTwo (1 <<< k) := by
  simp only [IsPowerOfTwo, Nat.one_shiftLeft, Nat.log2_two_pow]

theorem isPowerOfTwo_iff {n : Nat} : IsPowerOfTwo n ↔ ∃ k, n = 1 <<< k := by
  constructor
  · intro h
    exact ⟨n.log2, h.symm⟩
  · rintro ⟨k, rfl⟩
    exact isPowerOfTwo_one_shiftLeft k

theorem IsPowerOfTwo.pos {n : Nat} (h : IsPowerOfTwo n) : 0 < n := by
  rw [← h, Nat.one_shiftLeft]
  exact Nat.two_pow_pos _

end GamePak
