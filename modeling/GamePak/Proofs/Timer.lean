import GamePak.Timer

/-!
Timers stay in range. Counting never leaves the sixteen bits of the count, and clocking keeps the
prescaler between zero and the dots of a scanline, so that a timer in range can be clocked for
ever. No register of a timer can put it out of range.
-/

namespace GamePak.Timer

/-- A count that would overflow is one that rolls over. -/
theorem Counter.exists_step (c : Counter) (latch count : UInt16) :
    ∃ result, c.step latch count = .ok result := by
  have hlow : ¬ count % 256 = 255 → Count.next count = .ok (count + 1) := by
    intro h
    have hne : count ≠ 0xFFFF := by
      rintro rfl
      exact h (by decide)
    unfold Count.next
    rw [if_neg hne]
  cases c with
  | up8 =>
    by_cases h : count % 256 = 255
    · exact ⟨_, if_pos h⟩
    · refine ⟨(false, count + 1), ?_⟩
      simp only [step, h, if_false, hlow h, Except.map]
  | up16 =>
    by_cases h : count = 0xFFFF
    · exact ⟨_, if_pos h⟩
    · refine ⟨(false, count + 1), ?_⟩
      simp only [step, Count.next, h, if_false, Except.map]
  | up8Low =>
    by_cases h : count % 256 = 255
    · exact ⟨_, if_pos h⟩
    · refine ⟨(false, count + 1), ?_⟩
      simp only [step, h, if_false, hlow h, Except.map]
  | down16 => exact ⟨_, rfl⟩
  | down16Zero => exact ⟨_, rfl⟩

theorem exists_tick (t : Timer) :
    ∃ rolled t', t.tick = .ok (rolled, t') ∧ t'.prescaler = t.prescaler := by
  obtain ⟨⟨rolled, count⟩, hstep⟩ := t.counter.exists_step t.latch t.count
  refine ⟨rolled, { t with count, pending := t.pending || (rolled && t.output) }, ?_, rfl⟩
  unfold tick
  rw [hstep]
  rfl

theorem valid_zero {t : Timer} (h : t.prescaler = 0) : t.Valid := by
  unfold Valid period
  omega

theorem valid_none : ∀ t ∈ (none : Option Timer), t.Valid := nofun

theorem Valid.some {t : Timer} (ht : t.Valid) : ∀ u ∈ some t, u.Valid := by
  rintro u ⟨⟩
  exact ht

/-- Only the prescaler can be out of range. -/
theorem Valid.of_prescaler {t t' : Timer} (ht : t.Valid) (h : t'.prescaler = t.prescaler) :
    t'.Valid := by
  rw [Valid, h]
  exact ht

theorem exists_clock {t : Timer} (ht : t.Valid) :
    ∃ rolled t', t.clock = .ok (rolled, t') ∧ t'.Valid := by
  obtain ⟨hlow, hhigh⟩ := ht
  unfold clock
  split
  · exact ⟨false, t, rfl, hlow, hhigh⟩
  · split
    · obtain ⟨rolled, t', htick, hpre⟩ := t.exists_tick
      exact ⟨rolled, t', htick, Valid.of_prescaler ⟨hlow, hhigh⟩ hpre⟩
    · have hleft : Count.subSigned t.prescaler dotsPerCycle = .ok (t.prescaler - 3) := by
        unfold Count.subSigned dotsPerCycle
        rw [if_neg (by omega)]
      rw [hleft]
      simp only [bind, Except.bind]
      unfold period at hhigh
      split
      · refine ⟨false, _, rfl, ?_⟩
        unfold Valid period
        simp only
        omega
      · obtain ⟨rolled, t', htick, hpre⟩ :=
          exists_tick { t with prescaler := t.prescaler - 3 + period }
        refine ⟨rolled, t', htick, ?_⟩
        rw [Valid, hpre]
        unfold period
        simp only
        omega

theorem acknowledge_valid {t : Timer} (ht : t.Valid) : t.acknowledge.Valid := by
  unfold acknowledge
  split
  · exact ht
  · exact ht

theorem writeControl_valid {t : Timer} (ht : t.Valid) (c : Control) : (t.writeControl c).Valid := by
  unfold writeControl
  split
  · unfold Valid period
    simp only
    omega
  · exact ht

end GamePak.Timer
