import GamePak.Proofs.TimerModes
import GamePak.Proofs.TimerPorts

/-!
The timers of the Konami chips. The VRC4 has its four timer registers in the last block of program
memory, told apart by address lines that differ with the wiring; the VRC3 spreads six of them over
as many blocks. Behind these ports both timers keep the time that their latch and control byte ask
for, wherever acknowledgements fall.
-/

namespace GamePak

variable {d : Descriptor} {m : Machine}

/-! ## Nibbles -/

namespace Word

/-- A nibble that is written is there, and the others are as before. -/
theorem digit_setNibble (word : UInt16) (byte : UInt8) {n i : Nat} (hn : n < 4) (hi : i < 4) :
    digit (setNibble word n byte) i = if i = n then byte.toNat % 16 else digit word i := by
  rw [digit, digit, toNat_setNibble word byte hn]
  obtain rfl | rfl | rfl | rfl : n = 0 ∨ n = 1 ∨ n = 2 ∨ n = 3 := by omega
  all_goals
    obtain rfl | rfl | rfl | rfl : i = 0 ∨ i = 1 ∨ i = 2 ∨ i = 3 := by omega
    all_goals
      simp only [Nat.reducePow, Nat.reduceEqDiff, if_true, if_false]
      omega

theorem digit_mod (word : UInt16) {i : Nat} (hi : i < 2) : digit (word % 256) i = digit word i := by
  obtain rfl | rfl : i = 0 ∨ i = 1 := by omega
  all_goals
    simp only [digit, UInt16.toNat_mod, UInt16.reduceToNat, Nat.reducePow]
    omega

/-- Two nibbles make up the low byte. -/
theorem mod_eq_of_digits {word other : UInt16} (h : ∀ i < 2, digit word i = digit other i) :
    word.toNat % 256 = other.toNat % 256 := by
  have h₀ := h 0 (by omega)
  have h₁ := h 1 (by omega)
  simp only [digit, Nat.reducePow] at h₀ h₁
  omega

/-- Four nibbles make up the word. -/
theorem eq_of_digits {word other : UInt16} (h : ∀ i < 4, digit word i = digit other i) :
    word = other := by
  have hword : word.toNat < 65536 := word.toNat_lt
  have hother : other.toNat < 65536 := other.toNat_lt
  have hlow := mod_eq_of_digits fun i hi => h i (by omega)
  have h₂ := h 2 (by omega)
  have h₃ := h 3 (by omega)
  simp only [digit, Nat.reducePow] at h₂ h₃
  apply UInt16.toNat_inj.mp
  omega

end Word

/-! ## The ports of the VRC4 -/

namespace Vrc4

variable {r : Vrc4} {addr : UInt16}

/-- Four registers in the last block, told apart by the two register lines of the wiring. The mode
bit makes the timer count cycles in place of scanlines. -/
def ports (mapper : UInt16) : Timer.Ports where
  digits := 2
  register? addr :=
    if addr.toNat < 0xF000 then none
    else some ((lines mapper addr.toNat).1.toNat + 2 * (lines mapper addr.toNat).2.toNat)
  mode bit _ := if bit then .cycle else .scanline
  counter _ counter := counter

theorem ports_below (h : addr.toNat < 0xF000) : (ports r.mapper).register? addr = none :=
  if_pos h

theorem ports_above (h : 0xF000 ≤ addr.toNat) :
    (ports r.mapper).At (r.register addr.toNat) addr :=
  if_neg (Nat.not_lt_of_le h)

theorem write_timer_below (r : Vrc4) (value : UInt8) {addr : Nat} (h : addr < 0xF000) :
    (r.write addr value).registers.timer = r.timer := by
  unfold write writeChr
  simp only
  repeat' split
  all_goals rfl

theorem write_timer_above (r : Vrc4) (value : UInt8) {addr : Nat} (h : 0xF000 ≤ addr) :
    (r.write addr value).registers.timer =
      r.timer.map (writeTimer · (r.register addr) value) := by
  unfold write
  simp only
  rw [if_neg (by omega), if_neg (by omega), if_neg (by omega), if_neg (by omega),
    if_neg (by omega), if_neg (by omega)]

theorem writeTimer_obeys (t : Timer) {n : Nat} (hn : n < 4) (hat : (ports r.mapper).At n addr)
    (value : UInt8) :
    (ports r.mapper).Obeys t (.event (.write addr value)) (writeTimer t n value) := by
  have hnibble : ∀ n < 2, ∀ i < 2, Word.digit (Word.setNibble (t.latch % 256) n value) i =
      if i = n then value.toNat % 16 else Word.digit t.latch i := by
    intro n hn i hi
    rw [Word.digit_setNibble _ _ (by omega) (by omega), Word.digit_mod _ hi]
  obtain rfl | rfl | rfl | rfl : n = 0 ∨ n = 1 ∨ n = 2 ∨ n = 3 := by omega
  · exact .latch hat (Nat.zero_lt_succ 1) (hnibble 0 (by omega))
  · exact .latch hat (Nat.lt_succ_self 1) (hnibble 1 (by omega))
  · exact .control hat
  · exact .acknowledge hat

theorem write_obeys {t : Timer} (ht : r.timer = some t) (addr : UInt16) (value : UInt8) :
    ∃ t', (r.write addr.toNat value).registers.timer = some t' ∧
      (ports r.mapper).Obeys t (.event (.write addr value)) t' := by
  by_cases hlow : addr.toNat < 0xF000
  · refine ⟨t, ?_, .elsewhere (ports_below hlow) t value⟩
    rw [r.write_timer_below value hlow, ht]
  · have hhigh := Nat.le_of_not_lt hlow
    refine ⟨_, ?_, writeTimer_obeys t (r.register_lt addr.toNat) (ports_above hhigh) value⟩
    rw [r.write_timer_above value hhigh, ht, Option.map_some]

/-- The board is one of these chips, wired so. -/
def Has (mapper : UInt16) (b : Board) : Prop := ∃ r, b = .vrc4 r ∧ r.mapper = mapper

theorem ports_drive (mapper : UInt16) : (ports mapper).Drives (Has mapper) := by
  apply Timer.Ports.Drives.of_writes
  · rintro _ ⟨r, rfl, _⟩
    exact ⟨BoardKind.noConfusion, BoardKind.noConfusion⟩
  · rintro _ f ⟨r, rfl, hmapper⟩
    exact ⟨_, rfl, hmapper⟩
  · rintro _ t addr value _ ⟨r, rfl, rfl⟩ ht ⟨⟩
    exact ⟨⟨_, rfl, r.write_mapper addr.toNat value⟩, write_obeys ht addr value⟩
  · rintro _ addr ⟨r, rfl, rfl⟩ hat
    by_cases hlow : addr.toNat < 0xF000
    · exact absurd ((ports_below hlow).symm.trans hat) (Option.some_ne_none _).symm
    · have hhigh := Nat.le_of_not_lt hlow
      exact ⟨hhigh, .inr (Option.some.inj ((ports_above hhigh).symm.trans hat))⟩

/-- Where the latch holds this byte, a control byte sets the timer to roll over on these cycles. -/
theorem controlled_call {mapper : UInt16} {u : Timer} {value latch : UInt8}
    (hcounter : ((ports mapper).controlled u value).counter = .up8)
    (hlatch : u.latch.toNat % 256 = latch.toNat) (k : Nat) :
    ((ports mapper).controlled u value).call k =
      if value.toNat.testBit 2 then k * (256 - latch.toNat)
      else (341 * (k * (256 - latch.toNat)) + 2) / 3 := by
  have hspan : ((ports mapper).controlled u value).span = 256 - latch.toNat := by
    rw [Timer.span, hcounter, Timer.Ports.controlled_latch, ← hlatch]
    rfl
  have hmode : ((ports mapper).controlled u value).mode =
      if value.toNat.testBit 2 then .cycle else .scanline := rfl
  rw [Timer.call, hmode, hspan]
  cases value.toNat.testBit 2 <;> rfl

end Vrc4

/-! ## The ports of the VRC3 -/

namespace Vrc3

variable {r : Vrc3} {addr : UInt16}

/-- A register in each block from the first of program memory on. The mode bit makes the timer count
with its low byte alone. -/
def ports : Timer.Ports where
  digits := 4
  register? addr :=
    if 0x8000 ≤ addr.toNat ∧ addr.toNat < 0xE000 then some (addr.toNat / 0x1000 - 8) else none
  mode _ mode := mode
  counter bit _ := if bit then .up8Low else .up16

theorem ports_at_iff {n : Nat} :
    ports.At n addr ↔ n ≤ 5 ∧ 0x8000 + n * 0x1000 ≤ addr.toNat ∧
      addr.toNat < 0x9000 + n * 0x1000 := by
  by_cases hin : 0x8000 ≤ addr.toNat ∧ addr.toNat < 0xE000
  · have hregister : ports.register? addr = some (addr.toNat / 0x1000 - 8) := if_pos hin
    rw [Timer.Ports.At, hregister, Option.some.injEq]
    omega
  · have hregister : ports.register? addr = none := if_neg hin
    rw [Timer.Ports.At, hregister]
    exact iff_of_false (Option.some_ne_none n).symm (by omega)

theorem writeLatch_obeys (r : Vrc3) {n : Nat} (hn : n < 4) (hat : ports.At n addr)
    (value : UInt8) :
    ports.Obeys r.timer (.event (.write addr value)) (r.writeLatch n value).timer :=
  .latch hat hn fun _ hi => Word.digit_setNibble r.timer.latch value hn hi

theorem write_obeys (r : Vrc3) (addr : UInt16) (value : UInt8) :
    ports.Obeys r.timer (.event (.write addr value))
      (r.write addr.toNat value).registers.timer := by
  unfold write
  repeat' split
  · exact .elsewhere (if_neg (by omega)) r.timer value
  · exact r.writeLatch_obeys (by omega) (ports_at_iff.mpr (by omega)) value
  · exact r.writeLatch_obeys (by omega) (ports_at_iff.mpr (by omega)) value
  · exact r.writeLatch_obeys (by omega) (ports_at_iff.mpr (by omega)) value
  · exact r.writeLatch_obeys (by omega) (ports_at_iff.mpr (by omega)) value
  · exact .control ((ports_at_iff (n := 4)).mpr (by omega))
  · exact .acknowledge ((ports_at_iff (n := 5)).mpr (by omega))
  · exact .elsewhere (if_neg (by omega)) r.timer value
  · exact .elsewhere (if_neg (by omega)) r.timer value

/-- The board is one of these chips. -/
def Has (b : Board) : Prop := ∃ r, b = .vrc3 r

theorem ports_drive : ports.Drives Has := by
  apply Timer.Ports.Drives.of_writes
  · rintro _ ⟨r, rfl⟩
    exact ⟨BoardKind.noConfusion, BoardKind.noConfusion⟩
  · rintro _ f ⟨r, rfl⟩
    exact ⟨_, rfl⟩
  · rintro _ t addr value _ ⟨r, rfl⟩ ⟨⟩ ⟨⟩
    exact ⟨⟨_, rfl⟩, _, rfl, r.write_obeys addr value⟩
  · rintro _ addr ⟨r, rfl⟩ hat
    obtain ⟨_, hlow, hhigh⟩ := (ports_at_iff (n := 5)).mp hat
    exact ⟨by omega, by omega⟩

theorem controlled_counter (u : Timer) (value : UInt8) :
    (ports.controlled u value).counter = if value.toNat.testBit 2 then .up8Low else .up16 :=
  rfl

theorem controlled_armed (u : Timer) {value : UInt8} (hon : value.toNat.testBit 1 = true) :
    (ports.controlled u value).Armed := by
  apply Timer.Ports.controlled_armed hon (controlled_counter u value)
  split <;> rfl

/-- A control byte sets a timer that counts cycles to roll over on these. -/
theorem controlled_call {u : Timer} {value : UInt8}
    (hmode : (ports.controlled u value).mode = .cycle) (k : Nat) :
    (ports.controlled u value).call k =
      k * if value.toNat.testBit 2 then 256 - u.latch.toNat % 256 else 65536 - u.latch.toNat := by
  rw [Timer.call, hmode, Timer.span, controlled_counter, Timer.Ports.controlled_latch]
  cases value.toNat.testBit 2 <;> rfl

end Vrc3

/-! ## Keeping time -/

/-- The timer of a VRC4 counts with eight bits and drives the line. -/
theorem Cartridge.Reachable.vrc4_timer {c : Cartridge} (hc : c.Reachable d) {mapper : UInt16}
    (hb : Vrc4.Has mapper c.board) {t : Timer} (ht : c.board.timer? = some t) :
    t.counter = .up8 ∧ t.output = true := by
  obtain ⟨r, hboard, _⟩ := hb
  have hwired := hc.wired
  have hsettled := hc.settled
  rw [hboard] at ht hwired hsettled
  refine ⟨?_, hsettled.2 t ht⟩
  have ht : r.timer = some t := ht
  have hcounter := hwired.vrc4.2
  split at hcounter
  · exact absurd (hcounter.symm.trans ht) (Option.some_ne_none t).symm
  · obtain ⟨u, hu, hup⟩ := hcounter
    obtain rfl := Option.some.inj (ht.symm.trans hu)
    exact hup

/-- The timer of a VRC3 counts cycles and drives the line. -/
theorem Cartridge.Reachable.vrc3_timer {c : Cartridge} (hc : c.Reachable d)
    (hb : Vrc3.Has c.board) {t : Timer} (ht : c.board.timer? = some t) :
    t.mode = .cycle ∧ t.output = true := by
  obtain ⟨r, hboard⟩ := hb
  have hsteady := hc.steady
  rw [hboard] at ht hsteady
  exact Prod.mk.inj (hsteady t ht)

section

open Command (written clocks)

/-- Once the nibbles of a latch and then a control byte have turned the timer of a VRC4 on, the
cycles on which it rolls over, and raises the line, are those that the latch names: every so many
cycles, or scanlines of a third of 341 cycles. Acknowledgements clear the line. They do not move
these cycles if the control byte keeps the timer on; if it does not, the first one ends them, until
something turns the timer on again. Nothing else matters but what sets the timer anew: latch,
control byte or a snapshot that is taken. -/
theorem vrc4_interrupts_on_time (hm : m.cartridge.Reachable d) (hvideo : m.video.Fits d)
    {r : Vrc4} (hboard : m.cartridge.board = .vrc4 r) (htimer : r.timer.isSome)
    (setup : List Command) (hsetup : m.cartridge.TakesNone setup) (latch : UInt8)
    (hlatch : (Vrc4.ports r.mapper).Latched setup latch.toUInt16) {addr : UInt16}
    (hat : (Vrc4.ports r.mapper).At 2 addr) {value : UInt8}
    (hon : value.toNat.testBit 1 = true) :
    ∃ armed seen, m.run (setup ++ [.event (.write addr value)]) = .ok (armed, seen) ∧
      (∀ later, armed.cartridge.TakesNone later → written (Vrc4.ports r.mapper).SetsAt later = [] →
        ∃ last seen', armed.run later = .ok (last, seen') ∧
          last.NextCycle ((∃ k, 1 ≤ k ∧ clocks later + 1 =
              if value.toNat.testBit 2 then k * (256 - latch.toNat)
              else (341 * (k * (256 - latch.toNat)) + 2) / 3) ∧
            (value.toNat.testBit 0 = true ∨ written ((Vrc4.ports r.mapper).At 3) later = [])) ∧
          last.ClearedAt ((Vrc4.ports r.mapper).At 3)) ∧
      (value.toNat.testBit 0 = false → ∀ before later, armed.cartridge.TakesNone (before ++ later) →
        written (Vrc4.ports r.mapper).SetsAt before = [] →
        ∀ ackAt x, (Vrc4.ports r.mapper).At 3 ackAt →
          ∃ last seen', armed.run (before ++ .event (.write ackAt x) :: later) =
              .ok (last, seen') ∧
            ((∃ t ∈ last.cartridge.board.timer?, t.RollsOver) ∨
                last.cartridge.irqPending = true →
              (Vrc4.ports r.mapper).Rearmed later)) := by
  obtain ⟨t, ht⟩ := Option.isSome_iff_exists.mp htimer
  have hb : Vrc4.Has r.mapper m.cartridge.board := ⟨r, hboard, rfl⟩
  have ht : m.cartridge.board.timer? = some t := by rw [hboard]; exact ht
  obtain ⟨armed, seen, u, hrun, hreachable, hfits, hb', ht', hobeys⟩ :=
    Machine.exists_controlled_run (Vrc4.ports_drive r.mapper) hm hvideo hb ht hsetup hat value
  obtain ⟨hcounter, houtput⟩ := hreachable.vrc4_timer hb' ht'
  have hword : u.latch.toNat % 256 = latch.toNat := by
    have hbyte : latch.toNat < 256 := latch.toNat_lt
    rw [Word.mod_eq_of_digits fun i hi => hobeys.latched hlatch hi, UInt8.toNat_toUInt16,
      Nat.mod_eq_of_lt hbyte]
  have harmed := Timer.Ports.controlled_armed hon hcounter rfl
  have hagain := Timer.Ports.controlled_enabledAfterAck (p := Vrc4.ports r.mapper) (t := u) hon
  refine ⟨armed, seen, hrun, ?_, ?_⟩
  · intro later hlater hquiet
    obtain ⟨last, seen', t', hrun', _, _, _, hnext, hcleared⟩ := Machine.exists_timed_run
      (Vrc4.ports_drive r.mapper) hreachable hfits hb' ht' harmed houtput hlater hquiet
    simp only [Vrc4.controlled_call hcounter hword, hagain] at hnext
    exact ⟨last, seen', hrun', hnext, hcleared⟩
  · intro hstops before later hrestore hquiet ackAt x hack
    exact Machine.exists_stopped_run (Vrc4.ports_drive r.mapper) hreachable hfits hb' ht'
      (hagain.trans hstops) hrestore hquiet hack x

/-- With two cycles to go each time, an acknowledgement after the first cycle does not delay the
interrupt on the fourth. -/
theorem vrc4_interrupts_on_time_namedVrc2 :
    ∃ c notes, Cartridge.load .namedVrc2 (.zeroed 0x20000) (.zeroed 0x2000) =
        .ok { value := .ok c, notes } ∧
      ∃ armed seen last seen' next answer,
        Machine.run { cartridge := c, video := .cleared .namedVrc2 }
            [.event (.write 0xF005 0xF), .event (.write 0xF000 0xE), .event (.write 0xF00A 7)] =
          .ok (armed, seen) ∧
        armed.run [.event .clock, .event (.write 0xF003 0), .event .clock,
            .event (.write 0xFFFF 0), .event (.write 0x8000 3), .event .clock] =
          .ok (last, seen') ∧
        last.perform (.event .clock) = .ok (next, answer) ∧
        next.cartridge.irqPending = true := by
  obtain ⟨c, notes, hload, hboard⟩ := Descriptor.namedVrc2_load
  obtain ⟨armed, seen, hrun, hlater, _⟩ := vrc4_interrupts_on_time
    (m := { cartridge := c, video := .cleared .namedVrc2 }) (.load hload) ⟨rfl, rfl⟩ hboard rfl
    [.event (.write 0xF005 0xF), .event (.write 0xF000 0xE)] (by simp [Cartridge.TakesNone]) 0xFE
    (by decide) (show (Vrc4.ports 23).At 2 0xF00A from rfl)
    (show (7 : UInt8).toNat.testBit 1 from rfl)
  obtain ⟨last, seen', hrun', ⟨_, next, answer, hnext, hline⟩, _⟩ := hlater
    [.event .clock, .event (.write 0xF003 0), .event .clock, .event (.write 0xFFFF 0),
      .event (.write 0x8000 3), .event .clock] (by simp [Cartridge.TakesNone]) rfl
  exact ⟨c, notes, hload, armed, seen, last, seen', next, answer, hrun, hrun', hnext,
    hline.mpr (.inl ⟨⟨2, by decide, rfl⟩, .inl rfl⟩)⟩

/-- No control byte that follows the acknowledgement has the enable bit, and yet the line goes up:
one of them has the other bit, and so a second acknowledgement turns the timer on. -/
theorem line_raised_after_stop_namedVrc2 :
    ∃ c notes, Cartridge.load .namedVrc2 (.zeroed 0x20000) (.zeroed 0x2000) =
        .ok { value := .ok c, notes } ∧
      ∃ stopped seen later last seen',
        Machine.run { cartridge := c, video := .cleared .namedVrc2 }
            [.event (.write 0xF000 0xF), .event (.write 0xF001 0xF), .event (.write 0xF002 6),
              .event (.write 0xF003 0)] = .ok (stopped, seen) ∧
        (∀ value ∈ written ((Vrc4.ports 23).At 2) later, value.toNat.testBit 1 = false) ∧
        stopped.run later = .ok (last, seen') ∧ last.cartridge.irqPending = true := by
  obtain ⟨c, notes, hload, hboard⟩ := Descriptor.namedVrc2_load
  have hfirst : c.TakesNone [.event (.write 0xF000 0xF), .event (.write 0xF001 0xF),
      .event (.write 0xF002 6), .event (.write 0xF003 0)] := by simp [Cartridge.TakesNone]
  obtain ⟨stopped, seen, hrun, hreachable, hfits, hpasses⟩ := Machine.exists_passing_run
    (m := { cartridge := c, video := .cleared .namedVrc2 }) (.load hload) ⟨rfl, rfl⟩ hfirst
  have hsecond : stopped.cartridge.TakesNone [.event (.write 0xF002 5),
      .event (.write 0xF003 0), .event .clock] := by simp [Cartridge.TakesNone]
  obtain ⟨last, seen', hrun', _, _, hpasses'⟩ :=
    Machine.exists_passing_run hreachable hfits hsecond
  have hbytes : written ((Vrc4.ports 23).At 2) [.event (.write 0xF002 5),
      .event (.write 0xF003 0), .event .clock] = [5] := rfl
  refine ⟨c, notes, hload, stopped, seen, _, last, seen', hrun, ?_, hrun', ?_⟩
  · intro value hvalue
    rw [hbytes] at hvalue
    rw [List.mem_singleton.mp hvalue]
    rfl
  rw [show c.board = _ from hboard] at hpasses
  obtain ⟨_, ⟨_, ⟨⟩, rfl⟩, _, ⟨_, ⟨⟩, rfl⟩, _, ⟨_, ⟨⟩, rfl⟩, _, ⟨_, ⟨⟩, rfl⟩, hstopped⟩ := hpasses
  rw [show stopped.cartridge.board = _ from hstopped] at hpasses'
  obtain ⟨_, ⟨_, ⟨⟩, rfl⟩, _, ⟨_, ⟨⟩, rfl⟩, _, ⟨⟩, hlast⟩ := hpasses'
  rw [Cartridge.irqPending, show last.cartridge.board = _ from hlast]
  rfl

/-- Once the nibbles of a latch and then a control byte have turned the timer of a VRC3 on, it rolls
over, and raises the line, every so many cycles as the latch names: all of it, or its low byte alone
while the high byte of the count stays. Acknowledgements clear the line, and do not move these
cycles if the control byte keeps the timer on; nor does anything but what sets the timer anew. Each
nibble of the latch can be written without touching the others. -/
theorem vrc3_interrupts_on_time (hm : m.cartridge.Reachable d) (hvideo : m.video.Fits d)
    {r : Vrc3} (hboard : m.cartridge.board = .vrc3 r) :
    (∀ i < 4, ∀ addr value, Vrc3.ports.At i addr → ∃ next answer r',
      m.perform (.event (.write addr value)) = .ok (next, answer) ∧
      next.cartridge.board = .vrc3 r' ∧ ∀ j < 4, Word.digit r'.timer.latch j =
        if j = i then value.toNat % 16 else Word.digit r.timer.latch j) ∧
    ∀ setup, m.cartridge.TakesNone setup → ∀ latch, Vrc3.ports.Latched setup latch →
      ∀ addr, Vrc3.ports.At 4 addr → ∀ value : UInt8, value.toNat.testBit 1 = true →
      ∃ armed seen, m.run (setup ++ [.event (.write addr value)]) = .ok (armed, seen) ∧
        ∀ later, armed.cartridge.TakesNone later → written Vrc3.ports.SetsAt later = [] →
          ∃ last seen' r', armed.run later = .ok (last, seen') ∧
            last.cartridge.board = .vrc3 r' ∧
            (value.toNat.testBit 2 = true → r'.timer.count.toNat / 256 = latch.toNat / 256) ∧
            last.NextCycle ((∃ k, 1 ≤ k ∧ clocks later + 1 =
                k * if value.toNat.testBit 2 then 256 - latch.toNat % 256
                  else 65536 - latch.toNat) ∧
              (value.toNat.testBit 0 = true ∨ written (Vrc3.ports.At 5) later = [])) ∧
            last.ClearedAt (Vrc3.ports.At 5) := by
  have hb : Vrc3.Has m.cartridge.board := ⟨r, hboard⟩
  have ht : m.cartridge.board.timer? = some r.timer := by rw [hboard]; rfl
  constructor
  · intro i hi addr value hat
    obtain ⟨next, answer, hperform, _⟩ :=
      Machine.exists_perform ⟨hm.wellFormed, hvideo⟩ (.event (.write addr value))
    have hmoves := Machine.perform_moves hm hperform (by simp)
    obtain ⟨⟨r', hboard'⟩, t', ht', hobeys⟩ := Vrc3.ports_drive.moves hb ht hmoves
    rw [hboard'] at ht'
    cases ht'
    refine ⟨next, answer, r', hperform, hboard', ?_⟩
    intro j hj
    rw [hobeys.digit hj, Timer.Ports.written?_at hat]
    split <;> rfl
  · intro setup hsetup latch hlatch addr hat value hon
    obtain ⟨armed, seen, u, hrun, hreachable, hfits, hb', ht', hobeys⟩ :=
      Machine.exists_controlled_run Vrc3.ports_drive hm hvideo hb ht hsetup hat value
    obtain rfl : u.latch = latch := Word.eq_of_digits fun i hi => hobeys.latched hlatch hi
    obtain ⟨hmode, houtput⟩ := hreachable.vrc3_timer hb' ht'
    have hagain := Timer.Ports.controlled_enabledAfterAck (p := Vrc3.ports) (t := u) hon
    refine ⟨armed, seen, hrun, ?_⟩
    intro later hlater hquiet
    obtain ⟨last, seen', t', hrun', ⟨r', hboard'⟩, ht'', hobeys', hnext, hcleared⟩ :=
      Machine.exists_timed_run Vrc3.ports_drive hreachable hfits hb' ht'
        (Vrc3.controlled_armed u hon) houtput hlater hquiet
    rw [hboard'] at ht''
    cases ht''
    simp only [Vrc3.controlled_call hmode, hagain] at hnext
    refine ⟨last, seen', r', hrun', hboard', ?_, hnext, hcleared⟩
    intro hlow
    rw [hobeys'.highByte hquiet ((Vrc3.controlled_counter u value).trans (if_pos hlow)),
      Timer.Ports.controlled_count hon]

namespace Descriptor

/-- A VRC3 by its name. -/
def namedVrc3 : Descriptor := .named "KONAMI-VRC-3" 0x8000 0x2000

theorem namedVrc3_load :
    ∃ c notes, Cartridge.load .namedVrc3 (.zeroed 0x8000) (.zeroed 0x2000) =
        .ok { value := .ok c, notes } ∧ c.board = .vrc3 {} :=
  Cartridge.load_of_configure (by decide) Array.size_replicate Array.size_replicate (by decide)
    ⟨_, _, rfl⟩

end Descriptor

/-- While it counts with sixteen bits the timer is set to count with eight. With two cycles to go
each time, an acknowledgement after the second does not delay the interrupt on the fourth, and the
high byte of the count stays. -/
theorem vrc3_interrupts_on_time_namedVrc3 :
    ∃ c notes, Cartridge.load .namedVrc3 (.zeroed 0x8000) (.zeroed 0x2000) =
        .ok { value := .ok c, notes } ∧
      ∃ armed seen last seen' r' next answer,
        Machine.run { cartridge := c, video := .cleared .namedVrc3 }
            [.event (.write 0x8FFF 0xE), .event (.write 0xB000 0xA), .event (.write 0x9000 0x1F),
              .event (.write 0xA123 0xB), .event (.write 0xC000 2), .event .clock,
              .event (.write 0xCFFF 7)] = .ok (armed, seen) ∧
        armed.run [.event .clock, .event .clock, .event (.write 0xD000 0),
            .event (.write 0xF000 1), .event .clock] = .ok (last, seen') ∧
        last.cartridge.board = .vrc3 r' ∧ r'.timer.count.toNat / 256 = 0xAB ∧
        last.perform (.event .clock) = .ok (next, answer) ∧
        next.cartridge.irqPending = true := by
  obtain ⟨c, notes, hload, hboard⟩ := Descriptor.namedVrc3_load
  obtain ⟨_, hsetup⟩ := vrc3_interrupts_on_time
    (m := { cartridge := c, video := .cleared .namedVrc3 }) (.load hload) ⟨rfl, rfl⟩ hboard
  obtain ⟨armed, seen, hrun, hlater⟩ := hsetup
    [.event (.write 0x8FFF 0xE), .event (.write 0xB000 0xA), .event (.write 0x9000 0x1F),
      .event (.write 0xA123 0xB), .event (.write 0xC000 2), .event .clock]
    (by simp [Cartridge.TakesNone]) 0xABFE (by decide) 0xCFFF rfl 7 rfl
  obtain ⟨last, seen', r', hrun', hboard', hhigh, ⟨_, next, answer, hnext, hline⟩, _⟩ := hlater
    [.event .clock, .event .clock, .event (.write 0xD000 0), .event (.write 0xF000 1),
      .event .clock] (by simp [Cartridge.TakesNone]) rfl
  exact ⟨c, notes, hload, armed, seen, last, seen', r', next, answer, hrun, hrun', hboard',
    hhigh rfl, hnext, hline.mpr (.inl ⟨⟨2, by decide, rfl⟩, .inl rfl⟩)⟩

end

end GamePak
