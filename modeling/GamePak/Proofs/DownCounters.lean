import GamePak.Proofs.TimerModes
import GamePak.Proofs.TimerPorts

/-!
Timers that count down. The FME-7 and the Bandai chips count from a number to zero and on from FFFF,
and the line goes up on the cycle after zero. On the FME-7 the number is written to the counter byte
by byte, and a switch apart from the one that lets it count keeps it from the line. The Bandai chips
have a latch as well: which of the two a byte goes to, and whether turning the timer on brings the
latch over, depends on the chip and on the half of the address space that is written.
-/

namespace GamePak

open Command (written lastWritten clocks)

variable {d : Descriptor} {m : Machine}

/-! ## Bytes of a word -/

namespace Word

theorem toNat_setLow (word : UInt16) (byte : UInt8) :
    (setLow word byte).toNat = word.toNat / 256 * 256 + byte.toNat := by
  have hword : word.toNat < 65536 := word.toNat_lt
  have hbyte : byte.toNat < 256 := byte.toNat_lt
  simp only [setLow, UInt16.toNat_add, UInt16.toNat_mul, UInt16.toNat_div, UInt8.toNat_toUInt16,
    UInt16.reduceToNat]
  omega

theorem toNat_setHigh (word : UInt16) (byte : UInt8) :
    (setHigh word byte).toNat = word.toNat % 256 + byte.toNat * 256 := by
  have hbyte : byte.toNat < 256 := byte.toNat_lt
  simp only [setHigh, UInt16.toNat_add, UInt16.toNat_mul, UInt16.toNat_mod, UInt8.toNat_toUInt16,
    UInt16.reduceToNat]
  omega

end Word

/-! ## Counting down -/

namespace Timer

variable {t t' start : Timer} {n : Nat}

/-- The counter goes down, every cycle. -/
def GoesDown (t : Timer) : Prop :=
  (t.counter = .down16 ∨ t.counter = .down16Zero) ∧ t.mode = .cycle

theorem Counter.step_down {c : Counter} (h : c = .down16 ∨ c = .down16Zero)
    (latch count : UInt16) : c.step latch count = .ok (count = 0, count - 1) := by
  rcases h with rfl | rfl
  · have hend : count - 1 = 0xFFFF ↔ count = 0 := by
      rw [← UInt16.toNat_inj, ← UInt16.toNat_inj]
      have hcount : count.toNat < 65536 := count.toNat_lt
      simp only [UInt16.toNat_sub, UInt16.reduceToNat, Nat.reducePow]
      omega
    simp only [Counter.step, hend]
  · rfl

/-- What a timer that counts down has become after some cycles. -/
structure RunsDown (start : Timer) (n : Nat) (t : Timer) : Prop where
  goesDown : t.GoesDown
  latch : t.latch = start.latch
  enabled : t.enabled = start.enabled
  output : t.output = start.output
  count : (t.count.toNat : Int) =
    ((start.count.toNat : Int) - if start.enabled then n else 0) % 65536
  pending : t.pending = true ↔ start.pending = true ∨
    start.enabled = true ∧ start.output = true ∧ start.count.toNat + 1 ≤ n

theorem RunsDown.refl (h : t.GoesDown) : t.RunsDown 0 t where
  goesDown := h
  latch := rfl
  enabled := rfl
  output := rfl
  count := by
    have hcount : t.count.toNat < 65536 := t.count.toNat_lt
    split <;> omega
  pending := by simp

theorem RunsDown.clock (h : start.RunsDown n t) {rolled : Bool}
    (hclock : t.clock = .ok (rolled, t')) : start.RunsDown (n + 1) t' := by
  have hon := h.enabled
  have hcount := h.count
  cases henabled : start.enabled with
  | false =>
    rw [henabled] at hon
    simp only [Timer.clock, hon, Bool.not_false, if_true] at hclock
    cases hclock
    have hpending := h.pending
    simp only [henabled, Bool.false_eq_true, if_false, false_and, or_false] at hcount hpending
    exact { h with
      count := by simpa only [henabled, Bool.false_eq_true, if_false] using hcount
      pending := by simpa only [henabled, Bool.false_eq_true, false_and, or_false] using hpending }
  | true =>
    rw [henabled] at hon
    simp only [Timer.clock, Timer.tick, hon, h.goesDown.2, Counter.step_down h.goesDown.1,
      Bool.not_true, Bool.false_eq_true, if_false, bind, Except.bind, pure, Except.pure] at hclock
    cases hclock
    simp only [henabled, if_true] at hcount
    have hstart : start.count.toNat < 65536 := start.count.toNat_lt
    have hlt : t.count.toNat < 65536 := t.count.toNat_lt
    have hzero : t.count = 0 ↔ t.count.toNat = 0 := UInt16.toNat_inj.symm
    have hpending := h.pending
    simp only [henabled, true_and] at hpending
    refine ⟨⟨h.goesDown.1, rfl⟩, h.latch, henabled.symm, h.output, ?_, ?_⟩
    · simp only [henabled, if_true, UInt16.toNat_sub, UInt16.reduceToNat, Nat.reducePow]
      omega
    · -- Up to the wrap the count is at zero on one cycle, and from then on the line is up.
      simp only [Bool.or_eq_true, Bool.and_eq_true, decide_eq_true_eq, hpending, hzero, h.output,
        henabled, true_and]
      cases start.output with
      | false => simp
      | true =>
        by_cases hup : start.pending = true
        · simp [hup]
        · simp only [hup, Bool.false_eq_true, false_or, true_and, and_true]
          omega

end Timer

/-! ## The Bandai chips -/

namespace Fcg

variable {r : Fcg} {addr : UInt16} {past later : List Command} {command : Command} {b' : Board}

/-- The registers of the timer. -/
def TimerAt (r : Fcg) (addr : UInt16) : Prop :=
  r.Decodes addr.toNat ∧ 0xA ≤ addr.toNat % 16 ∧ addr.toNat % 16 ≤ 0xC

instance (r : Fcg) : DecidablePred r.TimerAt := fun _ => inferInstanceAs (Decidable (_ ∧ _))

/-- Where the latch takes its bytes, on a chip that has one. -/
def LatchAt (register : Nat) (addr : UInt16) : Prop :=
  0x8000 ≤ addr.toNat ∧ addr.toNat % 16 = register

instance (register : Nat) : DecidablePred (LatchAt register) :=
  fun _ => inferInstanceAs (Decidable (_ ∧ _))

/-- A word with the byte replaced that the address stands for. -/
def withByte (addr word : UInt16) (value : UInt8) : UInt16 :=
  if addr.toNat % 16 = 0xB then Word.setLow word value else Word.setHigh word value

/-- Writes to the timer at this address go through the latch. -/
def Latched (r : Fcg) (addr : UInt16) : Prop := 0x8000 ≤ addr.toNat ∧ r.variety ≠ 4

instance (r : Fcg) (addr : UInt16) : Decidable (r.Latched addr) :=
  inferInstanceAs (Decidable (_ ∧ _))

theorem decodes_congr {r' : Fcg} (h : r'.variety = r.variety) (addr : Nat) :
    r'.Decodes addr ↔ r.Decodes addr := by
  rw [Decodes, Decodes, h]

theorem write_elsewhere (h : ¬ r.TimerAt addr) (value : UInt8) :
    (r.write addr.toNat value).registers = r := by
  by_cases hdecodes : r.Decodes addr.toNat
  · have hregister : ¬ (0xA ≤ addr.toNat % 16 ∧ addr.toNat % 16 ≤ 0xC) :=
      fun hregister => h ⟨hdecodes, hregister⟩
    unfold write
    rw [if_neg (not_not_intro hdecodes)]
    repeat' split
    all_goals first
      | rfl
      | omega
  · rw [write, if_pos hdecodes]

theorem write_enable (h : r.Decodes addr.toNat) (hregister : addr.toNat % 16 = 0xA)
    (value : UInt8) : (r.write addr.toNat value).registers = r.writeEnable addr.toNat value := by
  rw [write, if_neg (not_not_intro h), hregister]
  rfl

theorem write_low (h : r.Decodes addr.toNat) (hregister : addr.toNat % 16 = 0xB)
    (value : UInt8) : (r.write addr.toNat value).registers = r.writeLow addr.toNat value := by
  rw [write, if_neg (not_not_intro h), hregister]
  rfl

theorem write_high (h : r.Decodes addr.toNat) (hregister : addr.toNat % 16 = 0xC)
    (value : UInt8) : (r.write addr.toNat value).registers = r.writeHigh addr.toNat value := by
  rw [write, if_neg (not_not_intro h), hregister]
  rfl

theorem write_variety (r : Fcg) (addr : Nat) (value : UInt8) :
    (r.write addr value).registers.variety = r.variety := by
  have hsoldered := r.write_soldered addr value
  have hvariety : (r.write addr value).registers.soldered.variety = r.soldered.variety :=
    congrArg Fcg.variety hsoldered
  exact hvariety

/-- Between writes to its registers the timer counts down, or stands. -/
theorem passes_quiet {chip : Fcg} (h : (Board.fcg r).Passes later b')
    (hchip : r.variety = chip.variety) (hquiet : written chip.TimerAt later = [])
    (hdown : r.timer.GoesDown) : ∃ r', b' = .fcg r' ∧ r.timer.RunsDown (clocks later) r'.timer := by
  suffices hkept : ∃ r', b' = .fcg r' ∧ r'.variety = chip.variety ∧
      r.timer.RunsDown (0 + clocks later) r'.timer by
    obtain ⟨r', hr', _, hruns⟩ := hkept
    rw [Nat.zero_add] at hruns
    exact ⟨r', hr', hruns⟩
  refine h.keeps hquiet (P := fun n b => ∃ r', b = .fcg r' ∧ r'.variety = chip.variety ∧
    r.timer.RunsDown n r'.timer) ?_ ⟨r, rfl, hchip, .refl hdown⟩
  rintro n b b' command ⟨r', rfl, hvariety, hruns⟩ hquiet hmoves
  cases hmoves.reacts with
  | @write addr value _ hreply heq =>
    cases hreply
    have hnot : ¬ r'.TimerAt addr := by
      intro hat
      exact Command.not_place_of_written? hquiet ⟨(decodes_congr hvariety _).mp hat.1, hat.2⟩
    exact ⟨r', heq.trans (congrArg Board.fcg (write_elsewhere hnot value)), hvariety, hruns⟩
  | clock _ ht hclock heq =>
    cases ht
    exact ⟨_, heq, hvariety, hruns.clock hclock⟩
  | read hkind => cases hkind
  | scanline hkind => cases hkind
  | ignored hignored heq =>
    rw [hignored.isClock (by simp [Board.kind]) rfl]
    exact ⟨r', heq, hvariety, hruns⟩

theorem decodes_above (h : r.variety ≠ 4) {addr : Nat} (haddr : 0x8000 ≤ addr) :
    r.Decodes addr := by
  rw [Decodes, if_neg h]
  split <;> omega

theorem direct_iff (r : Fcg) (addr : UInt16) : r.Direct addr.toNat ↔ ¬ r.Latched addr := by
  unfold Direct Latched
  by_cases hvariety : r.variety = 4 <;> simp [hvariety]

theorem Latched.not_direct (h : r.Latched addr) : ¬ r.Direct addr.toNat :=
  fun hdirect => (r.direct_iff addr).mp hdirect h

/-- Turning the timer on or off takes the line down, and brings the latch over if it goes through
it. -/
theorem writeEnable_timer (r : Fcg) (addr : UInt16) (value : UInt8) :
    (r.writeEnable addr.toNat value).timer = { r.timer with
      enabled := value.toNat.testBit 0
      pending := false
      count := if r.Latched addr then r.timer.latch else r.timer.count } := by
  by_cases hlatched : r.Latched addr
  · simp only [writeEnable, if_neg hlatched.not_direct, if_pos hlatched]
    rfl
  · simp only [writeEnable, if_pos ((r.direct_iff addr).mpr hlatched), if_neg hlatched]
    rfl

/-- One byte of the latch or of the count is replaced, and the timer goes on as it was. -/
theorem write_byte (h : r.Decodes addr.toNat)
    (hregister : addr.toNat % 16 = 0xB ∨ addr.toNat % 16 = 0xC) (value : UInt8) :
    (r.write addr.toNat value).registers.timer =
      if r.Latched addr then { r.timer with latch := withByte addr r.timer.latch value }
      else { r.timer with count := withByte addr r.timer.count value } := by
  by_cases hlatched : r.Latched addr
  · rw [if_pos hlatched, withByte]
    rcases hregister with hlow | hhigh
    · rw [write_low h hlow, writeLow, if_neg hlatched.not_direct, if_pos hlow]
    · rw [write_high h hhigh, writeHigh, if_neg hlatched.not_direct, if_neg (by omega)]
  · have hdirect : r.Direct addr.toNat := (r.direct_iff addr).mpr hlatched
    rw [if_neg hlatched, withByte]
    rcases hregister with hlow | hhigh
    · rw [write_low h hlow, writeLow, if_pos hdirect, if_pos hlow]
    · rw [write_high h hhigh, writeHigh, if_pos hdirect, if_neg (by omega)]

/-- The latch takes bytes where it has its registers, and no other write reaches it. -/
theorem write_latch (h : r.variety ≠ 4) (addr : UInt16) (value : UInt8) :
    (r.write addr.toNat value).registers.timer.latch =
      if LatchAt 0xB addr then Word.setLow r.timer.latch value
      else if LatchAt 0xC addr then Word.setHigh r.timer.latch value
      else r.timer.latch := by
  by_cases hlow : LatchAt 0xB addr
  · have hlatched : r.Latched addr := ⟨hlow.1, h⟩
    rw [if_pos hlow, write_byte (decodes_above h hlow.1) (.inl hlow.2), if_pos hlatched, withByte,
      if_pos hlow.2]
  rw [if_neg hlow]
  by_cases hhigh : LatchAt 0xC addr
  · have hlatched : r.Latched addr := ⟨hhigh.1, h⟩
    have hregister : addr.toNat % 16 ≠ 0xB := fun heq => hlow ⟨hhigh.1, heq⟩
    rw [if_pos hhigh, write_byte (decodes_above h hhigh.1) (.inr hhigh.2), if_pos hlatched,
      withByte, if_neg hregister]
  rw [if_neg hhigh]
  by_cases hat : r.TimerAt addr
  · obtain ⟨hdecodes, hregister⟩ := hat
    obtain hon | hbyte : addr.toNat % 16 = 0xA ∨
        (addr.toNat % 16 = 0xB ∨ addr.toNat % 16 = 0xC) := by omega
    · rw [write_enable hdecodes hon, writeEnable_timer]
    · -- Bytes for the lower half of the address space are for the count.
      have hlatched : ¬ r.Latched addr := by
        rintro ⟨haddr, _⟩
        rcases hbyte with hregister | hregister
        · exact hlow ⟨haddr, hregister⟩
        · exact hhigh ⟨haddr, hregister⟩
      rw [write_byte hdecodes hbyte, if_neg hlatched]
  · rw [write_elsewhere hat]

/-- The latch holds the last bytes that were written to it, on the chips that have one. -/
def Follows (past : List Command) (r : Fcg) : Prop :=
  r.variety ≠ 4 → r.timer.latch.toNat =
    (lastWritten (LatchAt 0xC) past).toNat * 256 + (lastWritten (LatchAt 0xB) past).toNat

theorem Follows.moves {r' : Fcg} (h : r.Follows past)
    (hmoves : command.Moves (.fcg r) (.fcg r')) : r'.Follows (past ++ [command]) := by
  cases hmoves.reacts with
  | @write addr value _ hreply heq =>
    cases hreply
    cases heq
    intro hvariety
    rw [write_variety] at hvariety
    have hold := h hvariety
    have hbyte : (lastWritten (LatchAt 0xB) past).toNat < 256 := UInt8.toNat_lt _
    rw [write_latch hvariety, Command.lastWritten_write, Command.lastWritten_write]
    by_cases hlow : LatchAt 0xB addr
    · have hhigh : ¬ LatchAt 0xC addr := fun h => by simp [LatchAt, hlow.2] at h
      rw [if_pos hlow, if_pos hlow, if_neg hhigh, Word.toNat_setLow]
      omega
    · rw [if_neg hlow, if_neg hlow]
      by_cases hhigh : LatchAt 0xC addr
      · rw [if_pos hhigh, if_pos hhigh, Word.toNat_setHigh]
        omega
      · rw [if_neg hhigh, if_neg hhigh]
        exact hold
  | clock _ ht hclock heq =>
    cases ht
    cases heq
    intro hvariety
    rw [Command.lastWritten_concat, Command.lastWritten_concat, (Timer.clock_kept hclock).1]
    exact h hvariety
  | read hkind => cases hkind
  | scanline hkind => cases hkind
  | ignored hignored heq =>
    cases heq
    intro hvariety
    rw [Command.lastWritten_concat, Command.lastWritten_concat, hignored.written?,
      hignored.written?]
    exact h hvariety

end Fcg

/-! ## The FME-7 -/

namespace Fme7

variable {r : Fme7} {start : Timer} {addr : UInt16} {number n : Nat} {later setup : List Command}
  {command : Command} {b' : Board}

/-- Where the number of a register is written. -/
def SelectAt (addr : UInt16) : Prop := 0x8000 ≤ addr.toNat ∧ addr.toNat < 0xA000

/-- Where the register with this number is written. -/
def ParameterAt (addr : UInt16) : Prop := 0xA000 ≤ addr.toNat ∧ addr.toNat < 0xC000

instance : DecidablePred SelectAt := fun _ => inferInstanceAs (Decidable (_ ∧ _))

instance : DecidablePred ParameterAt := fun _ => inferInstanceAs (Decidable (_ ∧ _))

/-- The number that is selected after a command. -/
def selectedBy (number : Nat) (command : Command) : Nat :=
  ((command.written? SelectAt).map (·.toNat % 16)).getD number

/-- The number that is selected after commands. -/
def selected (number : Nat) (commands : List Command) : Nat := commands.foldl selectedBy number

/-- The byte that a command writes to a register. -/
def parameterOf (register number : Nat) (command : Command) : Option UInt8 :=
  if number = register then command.written? ParameterAt else none

/-- The bytes that commands write to a register, first to last. -/
def parametersOf (register : Nat) : Nat → List Command → List UInt8
  | _, [] => []
  | number, command :: rest =>
    (parameterOf register number command).toList ++
      parametersOf register (selectedBy number command) rest

theorem write_select (h : SelectAt addr) (value : UInt8) :
    r.write addr.toNat value = { registers := { r with command := value % 16 } } := by
  rw [write, if_neg (by unfold SelectAt at h; omega), if_pos h.2]

theorem write_parameter (h : ParameterAt addr) (value : UInt8) :
    r.write addr.toNat value = r.parameter value := by
  unfold ParameterAt at h
  rw [write, if_neg (by omega), if_neg (by omega), if_pos h.2]

theorem write_outside (hselect : ¬ SelectAt addr) (hparameter : ¬ ParameterAt addr)
    (value : UInt8) : (r.write addr.toNat value).registers = r := by
  unfold SelectAt at hselect
  unfold ParameterAt at hparameter
  unfold write
  repeat' split
  all_goals first
    | rfl
    | omega

theorem parameter_command (r : Fme7) (value : UInt8) :
    (r.parameter value).registers.command = r.command := by
  unfold parameter writeWorkArea writeSwitches
  repeat' split
  all_goals rfl

theorem parameter_timer (r : Fme7) (value : UInt8) :
    (r.parameter value).registers.timer =
      if r.command.toNat % 16 = 0xD then (r.writeSwitches value).timer
      else if r.command.toNat % 16 = 0xE then
        { r.timer with count := Word.setLow r.timer.count value }
      else if r.command.toNat % 16 = 0xF then
        { r.timer with count := Word.setHigh r.timer.count value }
      else r.timer := by
  by_cases hswitches : r.command.toNat % 16 = 0xD
  · rw [if_pos hswitches, parameter, hswitches]
    rfl
  rw [if_neg hswitches]
  by_cases hlow : r.command.toNat % 16 = 0xE
  · rw [if_pos hlow, parameter, hlow]
    rfl
  rw [if_neg hlow]
  by_cases hhigh : r.command.toNat % 16 = 0xF
  · rw [if_pos hhigh, parameter, hhigh]
    rfl
  rw [if_neg hhigh]
  unfold parameter writeWorkArea
  split
  all_goals first
    | rfl
    | contradiction

/-- The number that is selected follows the writes. -/
theorem write_command (r : Fme7) (addr : UInt16) (value : UInt8) :
    (r.write addr.toNat value).registers.command.toNat % 16 =
      selectedBy (r.command.toNat % 16) (.event (.write addr value)) := by
  by_cases hselect : SelectAt addr
  · rw [write_select hselect, selectedBy, Command.written?, if_pos hselect]
    simp only [UInt8.toNat_mod, UInt8.reduceToNat, Option.map_some, Option.getD_some]
    omega
  · rw [selectedBy, Command.written?, if_neg hselect]
    by_cases hparameter : ParameterAt addr
    · rw [write_parameter hparameter, parameter_command]
      rfl
    · rw [write_outside hselect hparameter]
      rfl

theorem write_timer (r : Fme7) (addr : UInt16) (value : UInt8) :
    (r.write addr.toNat value).registers.timer =
      if ParameterAt addr then (r.parameter value).registers.timer else r.timer := by
  by_cases hparameter : ParameterAt addr
  · rw [if_pos hparameter, write_parameter hparameter]
  · rw [if_neg hparameter]
    by_cases hselect : SelectAt addr
    · rw [write_select hselect]
    · rw [write_outside hselect hparameter]

theorem selectedBy_of_none
    (h : ∀ (place : UInt16 → Prop) [DecidablePred place], command.written? place = none) :
    selectedBy number command = number := by
  rw [selectedBy, h]
  rfl

/-- Without a byte for one of the timer's three registers the timer counts down, or stands. -/
theorem passes_quiet (h : (Board.fme7 r).Passes later b')
    (hquiet : ∀ register ≥ 0xD, parametersOf register (r.command.toNat % 16) later = [])
    (hruns : start.RunsDown n r.timer) :
    ∃ r', b' = .fme7 r' ∧ start.RunsDown (n + clocks later) r'.timer := by
  -- Which register a byte reaches depends on the number selected before, so the registers go along.
  induction later generalizing r n with
  | nil =>
    cases h
    exact ⟨r, rfl, hruns⟩
  | cons command rest ih =>
    obtain ⟨next, hmoves, hpasses⟩ := h
    have hfirst : ∀ register ≥ 0xD, r.command.toNat % 16 = register →
        command.written? ParameterAt = none := by
      intro register hregister hnumber
      have hnone := Option.toList_eq_nil_iff.mp
        (List.append_eq_nil_iff.mp (hquiet register hregister)).1
      rw [parameterOf, if_pos hnumber] at hnone
      exact hnone
    have hrest : ∀ register ≥ 0xD,
        parametersOf register (selectedBy (r.command.toNat % 16) command) rest = [] :=
      fun register hregister => (List.append_eq_nil_iff.mp (hquiet register hregister)).2
    rw [clocks, List.countP_cons]
    cases hmoves.reacts with
    | @write addr value _ hreply heq =>
      cases hreply
      cases heq
      rw [← write_command] at hrest
      have htimer : (r.write addr.toNat value).registers.timer = r.timer := by
        rw [write_timer]
        by_cases hparameter : ParameterAt addr
        · have hsmall : ¬ 0xD ≤ r.command.toNat % 16 := by
            intro hlarge
            exact Command.not_place_of_written? (hfirst _ hlarge rfl) hparameter
          rw [if_pos hparameter, parameter_timer, if_neg (by omega), if_neg (by omega),
            if_neg (by omega)]
        · rw [if_neg hparameter]
      exact ih hpasses hrest (htimer ▸ hruns)
    | clock _ ht hclock heq =>
      cases ht
      cases heq
      obtain ⟨r', hr', hlast⟩ := ih hpasses hrest (hruns.clock hclock)
      refine ⟨r', hr', ?_⟩
      rw [Nat.add_right_comm, Nat.add_assoc] at hlast
      exact hlast
    | read hkind => cases hkind
    | scanline hkind => cases hkind
    | ignored hignored heq =>
      cases heq
      rw [selectedBy_of_none hignored.written?] at hrest
      rw [hignored.isClock (by simp [Board.kind]) rfl]
      exact ih hpasses hrest hruns

theorem getLast?_parametersOf_cons {register : Nat} :
    (parametersOf register number (command :: later)).getLast? =
      (parametersOf register (selectedBy number command) later).getLast?.or
        (parameterOf register number command) := by
  rw [parametersOf, List.getLast?_append]
  cases parameterOf register number command <;> rfl

/-- A byte, or what was there if none was written. -/
def byteOr (old : Nat) (byte : Option UInt8) : Nat := (byte.map UInt8.toNat).getD old

theorem byteOr_or (old : Nat) (later first : Option UInt8) :
    byteOr old (later.or first) = byteOr (byteOr old first) later := by
  cases later <;> rfl

/-- Two registers hold the bytes of the count, and no other write reaches it. -/
theorem write_count (r : Fme7) (addr : UInt16) (value : UInt8) :
    (r.write addr.toNat value).registers.timer.count.toNat % 256 =
      byteOr (r.timer.count.toNat % 256)
        (parameterOf 0xE (r.command.toNat % 16) (.event (.write addr value))) ∧
    (r.write addr.toNat value).registers.timer.count.toNat / 256 =
      byteOr (r.timer.count.toNat / 256)
        (parameterOf 0xF (r.command.toNat % 16) (.event (.write addr value))) := by
  have hcount : r.timer.count.toNat < 65536 := r.timer.count.toNat_lt
  have hbyte : value.toNat < 256 := value.toNat_lt
  rw [write_timer, parameterOf, parameterOf, Command.written?]
  by_cases hparameter : ParameterAt addr
  · rw [if_pos hparameter, if_pos hparameter, parameter_timer]
    by_cases hlow : r.command.toNat % 16 = 0xE
    · rw [if_neg (by omega), if_pos hlow, if_pos hlow, if_neg (by omega), Word.toNat_setLow]
      simp only [byteOr, Option.map_some, Option.getD_some, Option.map_none, Option.getD_none]
      omega
    · by_cases hhigh : r.command.toNat % 16 = 0xF
      · rw [if_neg (by omega), if_neg hlow, if_pos hhigh, if_neg hlow, if_pos hhigh,
          Word.toNat_setHigh]
        simp only [byteOr, Option.map_some, Option.getD_some, Option.map_none, Option.getD_none]
        omega
      · rw [if_neg hlow, if_neg hhigh, if_neg hlow, if_neg hhigh]
        split <;> exact ⟨rfl, rfl⟩
  · rw [if_neg hparameter, if_neg hparameter, ite_self, ite_self]
    exact ⟨rfl, rfl⟩

/-- Before it is turned on the count takes the bytes that are written to it. -/
theorem passes_setup (h : (Board.fme7 r).Passes setup b') (hclocks : clocks setup = 0) :
    ∃ r', b' = .fme7 r' ∧ r'.command.toNat % 16 = selected (r.command.toNat % 16) setup ∧
      r'.timer.count.toNat % 256 = byteOr (r.timer.count.toNat % 256)
        (parametersOf 0xE (r.command.toNat % 16) setup).getLast? ∧
      r'.timer.count.toNat / 256 = byteOr (r.timer.count.toNat / 256)
        (parametersOf 0xF (r.command.toNat % 16) setup).getLast? := by
  induction setup generalizing r with
  | nil =>
    cases h
    exact ⟨r, rfl, rfl, rfl, rfl⟩
  | cons command rest ih =>
    obtain ⟨next, hmoves, hpasses⟩ := h
    rw [clocks, List.countP_cons, Nat.add_eq_zero_iff] at hclocks
    rw [getLast?_parametersOf_cons, getLast?_parametersOf_cons, byteOr_or, byteOr_or]
    cases hmoves.reacts with
    | @write addr value _ hreply heq =>
      cases hreply
      cases heq
      obtain ⟨hlow, hhigh⟩ := r.write_count addr value
      rw [← hlow, ← hhigh, ← write_command]
      obtain ⟨r', hr', hnumber, hbytes⟩ := ih hpasses hclocks.1
      rw [write_command] at hnumber
      exact ⟨r', hr', hnumber, hbytes⟩
    | clock => exact absurd hclocks.2 (by decide)
    | read hkind => cases hkind
    | scanline hkind => cases hkind
    | ignored hignored heq =>
      cases heq
      have hparameter : ∀ register,
          parameterOf register (r.command.toNat % 16) command = none := by
        intro register
        rw [parameterOf, hignored.written?, ite_self]
      have hselected : selectedBy (r.command.toNat % 16) command = r.command.toNat % 16 :=
        selectedBy_of_none hignored.written?
      obtain ⟨r', hr', hnumber, hbytes⟩ := ih hpasses hclocks.1
      rw [hparameter, hparameter, hselected]
      refine ⟨r', hr', ?_, hbytes⟩
      rw [hnumber, selected, selected, List.foldl_cons, hselected]

end Fme7

/-! ## Cartridges -/

namespace Cartridge

variable {c : Cartridge} {past : List Command}

theorem Reachable.wired_fcg {r : Fcg} (hc : c.Reachable d) (hboard : c.board = .fcg r) :
    r.variety = Fcg.varietyOf d ∧ r.timer.GoesDown ∧ r.timer.output = true := by
  have hwired := hc.wired
  have hsteady := hc.steady
  rw [hboard] at hwired hsteady
  obtain ⟨reply, hstart, hreply⟩ := hwired
  obtain ⟨own, hown, rfl⟩ := Option.map_eq_some_iff.mp hstart
  obtain ⟨_, rfl⟩ := Fcg.start?_eq_some hown
  have hsame : Fcg.soldered { variety := Fcg.varietyOf d } = r.soldered := Board.fcg.inj hreply
  have hvariety : Fcg.varietyOf d = r.variety := congrArg Fcg.variety hsame
  have hcounter : .down16Zero = r.timer.counter := congrArg (·.timer.counter) hsame
  have hmanner : r.timer.manner = (.cycle, true) := hsteady r.timer rfl
  exact ⟨hvariety.symm, ⟨.inr hcounter.symm, congrArg Prod.fst hmanner⟩, congrArg Prod.snd hmanner⟩

theorem Reachable.wired_fme7 {r : Fme7} (hc : c.Reachable d) (hboard : c.board = .fme7 r) :
    r.timer.GoesDown := by
  have hwired := hc.wired
  have hsteady := hc.steady
  rw [hboard] at hwired hsteady
  obtain ⟨reply, hstart, hreply⟩ := hwired
  obtain ⟨own, hown, rfl⟩ := Option.map_eq_some_iff.mp hstart
  obtain ⟨_, rfl⟩ := Fme7.start?_eq_some hown
  have hsame : Fme7.soldered {} = r.soldered := Board.fme7.inj hreply
  have hcounter : .down16 = r.timer.counter := congrArg (·.timer.counter) hsame
  exact ⟨.inl hcounter.symm, hsteady⟩

theorem CameOf.latch {r : Fcg} (hc : c.CameOf d past) (hboard : c.board = .fcg r) :
    r.Follows past := by
  refine hc.keeps_chip (k := .fcg) (P := Fcg.Follows) ?_ Fcg.Follows.moves hboard
  intro reply r hstart hr
  obtain ⟨own, hown, rfl⟩ := Option.map_eq_some_iff.mp hstart
  obtain ⟨_, rfl⟩ := Fcg.start?_eq_some hown
  cases hr
  exact fun _ => rfl

end Cartridge

namespace Machine

/-- A run during which the count goes down by one every cycle and, if the timer drives the line, the
line goes up on the cycle after zero. -/
def CountsDown (m : Machine) (start : UInt16) (drives : Bool) (later : List Command) : Prop :=
  ∃ last seen t, m.run later = .ok (last, seen) ∧ last.cartridge.board.timer? = some t ∧
    (t.count.toNat : Int) = ((start.toNat : Int) - clocks later) % 65536 ∧
    (last.cartridge.irqPending = true ↔ drives = true ∧ start.toNat + 1 ≤ clocks later)

theorem countsDown_of_runsDown {last : Machine} {seen : List Observation} {start t : Timer}
    {later : List Command} (hrun : m.run later = .ok (last, seen))
    (ht : last.cartridge.board.timer? = some t) (hruns : start.RunsDown (clocks later) t)
    (hon : start.enabled = true) (hline : start.pending = false) :
    m.CountsDown start.count start.output later := by
  have hcount := hruns.count
  have hpending := hruns.pending
  simp only [hon, hline, if_true, Bool.false_eq_true, false_or, true_and] at hcount hpending
  refine ⟨last, seen, t, hrun, ht, hcount, ?_⟩
  rw [Cartridge.irqPending, Board.irqPending, ht]
  exact hpending

/-- A write can be followed on the board. -/
theorem exists_write (hm : m.cartridge.Reachable d) (hvideo : m.video.Fits d) (addr : UInt16)
    (value : UInt8) :
    ∃ next answer reply, m.perform (.event (.write addr value)) = .ok (next, answer) ∧
      next.cartridge.Reachable d ∧ next.video.Fits d ∧
      m.cartridge.board.write addr value = .ok reply ∧
      next.cartridge.board = reply.registers := by
  obtain ⟨next, answer, hperform, hnext⟩ :=
    exists_perform ⟨hm.wellFormed, hvideo⟩ (.event (.write addr value))
  obtain ⟨reply, hreply, hboard⟩ := perform_moves hm hperform (by simp)
  exact ⟨next, answer, reply, hperform, perform_untaken hm hperform (by simp), hnext.video, hreply,
    hboard⟩

end Machine

/-- Once both bytes of a number have been written to the count, in either order and with no cycle in
between, turning the timer on makes it count down from there, through whatever writes to other
registers; it drives the line if the other switch is on as well. -/
def Fme7.KeepsTime (r : Fme7) (m : Machine) : Prop :=
  ∀ setup, m.cartridge.TakesNone setup → clocks setup = 0 → ∀ count : UInt16,
    (parametersOf 0xE (r.command.toNat % 16) setup).getLast?.map UInt8.toNat =
      some (count.toNat % 256) →
    (parametersOf 0xF (r.command.toNat % 16) setup).getLast?.map UInt8.toNat =
      some (count.toNat / 256) →
    selected (r.command.toNat % 16) setup = 0xD → ∀ addr, ParameterAt addr →
    ∀ value : UInt8, value.toNat.testBit 7 = true →
      ∃ armed seen, m.run (setup ++ [.event (.write addr value)]) = .ok (armed, seen) ∧
        ∀ later, armed.cartridge.TakesNone later →
          (∀ register ≥ 0xD, parametersOf register 0xD later = []) →
            armed.CountsDown count (value.toNat.testBit 0) later

theorem Fme7.keepsTime {r : Fme7} (hm : m.cartridge.Reachable d) (hvideo : m.video.Fits d)
    (hboard : m.cartridge.board = .fme7 r) : r.KeepsTime m := by
  intro setup hsetup hclocks count hlow hhigh hselected addr hat value hon
  have hcommands : m.cartridge.TakesNone (setup ++ [.event (.write addr value)]) :=
    fun s hs => hsetup s (by simpa using hs)
  obtain ⟨armed, seen, hrun, hreachable, hfits, hpasses⟩ :=
    Machine.exists_passing_run hm hvideo hcommands
  rw [hboard] at hpasses
  obtain ⟨mid, hbefore, _, ⟨reply, hreply, rfl⟩, harmed⟩ := Board.passes_append.mp hpasses
  obtain ⟨r₁, rfl, hnumber, hbyte, hbyte'⟩ := passes_setup hbefore hclocks
  cases hreply
  have harmed : armed.cartridge.board = .fme7 (r₁.parameter value).registers := by
    rw [← write_parameter hat]
    exact harmed
  have hnumber : r₁.command.toNat % 16 = 0xD := hnumber.trans hselected
  have hcount : r₁.timer.count = count := by
    rw [byteOr, hlow, Option.getD_some] at hbyte
    rw [byteOr, hhigh, Option.getD_some] at hbyte'
    apply UInt16.toNat_inj.mp
    omega
  have htimer : (r₁.parameter value).registers.timer = (r₁.writeSwitches value).timer := by
    rw [parameter_timer, if_pos hnumber]
  refine ⟨armed, seen, hrun, ?_⟩
  intro later hlater hquiet
  obtain ⟨last, seen', hrun', _, _, hpasses'⟩ := Machine.exists_passing_run hreachable hfits hlater
  have hdown := hreachable.wired_fme7 harmed
  rw [harmed] at hpasses'
  obtain ⟨r₂, hlast, hruns⟩ := passes_quiet hpasses'
    (by rw [parameter_command, hnumber]; exact hquiet) (.refl hdown)
  rw [Nat.zero_add, htimer] at hruns
  rw [← hcount]
  exact Machine.countsDown_of_runsDown hrun' (congrArg Board.timer? hlast) hruns hon rfl

namespace Fcg

variable {r : Fcg}

/-- The number of a word with the byte replaced that the address stands for. -/
def replaced (addr : UInt16) (word : UInt16) (value : UInt8) : Nat :=
  if addr.toNat % 16 = 0xB then word.toNat / 256 * 256 + value.toNat
  else word.toNat % 256 + value.toNat * 256

theorem toNat_withByte (addr word : UInt16) (value : UInt8) :
    (withByte addr word value).toNat = replaced addr word value := by
  unfold withByte replaced
  split
  · exact Word.toNat_setLow word value
  · exact Word.toNat_setHigh word value

/-- What becomes of the timer. -/
structure KeepsTime (r : Fcg) (m : Machine) : Prop where
  /-- Turned on, it takes the line down and counts down, from the latch or from where it stands. -/
  enable : ∀ addr, r.Decodes addr.toNat → addr.toNat % 16 = 0xA →
    ∀ value : UInt8, value.toNat.testBit 0 = true → ∃ armed answer t,
      m.perform (.event (.write addr value)) = .ok (armed, answer) ∧
      armed.cartridge.board.timer? = some t ∧ armed.cartridge.irqPending = false ∧
      t.count = (if r.Latched addr then r.timer.latch else r.timer.count) ∧
      ∀ later, armed.cartridge.TakesNone later → written r.TimerAt later = [] →
        armed.CountsDown t.count true later
  /-- Its bytes go to the latch or to the count. -/
  byte : ∀ addr, r.Decodes addr.toNat → addr.toNat % 16 = 0xB ∨ addr.toNat % 16 = 0xC →
    ∀ value : UInt8, ∃ next answer t,
      m.perform (.event (.write addr value)) = .ok (next, answer) ∧
      next.cartridge.board.timer? = some t ∧ t.enabled = r.timer.enabled ∧
      t.latch.toNat =
        (if r.Latched addr then replaced addr r.timer.latch value else r.timer.latch.toNat) ∧
      t.count.toNat =
        if r.Latched addr then r.timer.count.toNat else replaced addr r.timer.count value
  /-- Between such writes the count goes down every cycle, or stands while the timer is off. -/
  between : ∀ later, m.cartridge.TakesNone later → written r.TimerAt later = [] →
    ∃ last seen t, m.run later = .ok (last, seen) ∧ last.cartridge.board.timer? = some t ∧
      t.enabled = r.timer.enabled ∧ t.latch = r.timer.latch ∧
      (t.count.toNat : Int) =
        ((r.timer.count.toNat : Int) - if r.timer.enabled then clocks later else 0) % 65536

theorem keepsTime (hm : m.cartridge.Reachable d) (hvideo : m.video.Fits d)
    (hboard : m.cartridge.board = .fcg r) : r.KeepsTime m := by
  refine ⟨?_, ?_, ?_⟩
  · intro addr hdecodes hregister value hon
    obtain ⟨armed, answer, reply, hperform, hreachable, hfits, hreply, harmed⟩ :=
      Machine.exists_write hm hvideo addr value
    rw [hboard] at hreply
    cases hreply
    have harmed : armed.cartridge.board = .fcg (r.writeEnable addr.toNat value) := by
      rw [← write_enable hdecodes hregister]
      exact harmed
    have hstarted := r.writeEnable_timer addr value
    refine ⟨armed, answer, (r.writeEnable addr.toNat value).timer, hperform,
      congrArg Board.timer? harmed, ?_, by rw [hstarted], ?_⟩
    · rw [Cartridge.irqPending, harmed]
      exact congrArg Timer.pending hstarted
    · intro later hlater hquiet
      obtain ⟨last, seen, hrun, _, _, hpasses⟩ :=
        Machine.exists_passing_run hreachable hfits hlater
      rw [harmed] at hpasses
      obtain ⟨r', hlast, hruns⟩ :=
        passes_quiet hpasses rfl hquiet (hreachable.wired_fcg harmed).2.1
      have hcounts := Machine.countsDown_of_runsDown hrun (congrArg Board.timer? hlast) hruns
        (by rw [hstarted]; exact hon) (by rw [hstarted])
      rw [(hreachable.wired_fcg harmed).2.2] at hcounts
      exact hcounts
  · intro addr hdecodes hregister value
    obtain ⟨next, answer, reply, hperform, _, _, hreply, hnext⟩ :=
      Machine.exists_write hm hvideo addr value
    rw [hboard] at hreply
    cases hreply
    refine ⟨next, answer, _, hperform, congrArg Board.timer? hnext, ?_⟩
    rw [write_byte hdecodes hregister]
    by_cases hlatched : r.Latched addr
    · simp only [if_pos hlatched, toNat_withByte, and_self]
    · simp only [if_neg hlatched, toNat_withByte, and_self]
  · intro later hlater hquiet
    obtain ⟨last, seen, hrun, _, _, hpasses⟩ := Machine.exists_passing_run hm hvideo hlater
    rw [hboard] at hpasses
    obtain ⟨r', hlast, hruns⟩ := passes_quiet hpasses rfl hquiet (hm.wired_fcg hboard).2.1
    exact ⟨last, seen, r'.timer, hrun, congrArg Board.timer? hlast, hruns.enabled, hruns.latch,
      hruns.count⟩

end Fcg

/-- From every reachable state, the timers of the FME-7 and of the Bandai chips count down one a
cycle from the number that they are turned on with, and raise the line on the cycle after zero and
no sooner. On the Bandai chips this number comes from the latch, which holds the last bytes written
to it, or is the count as it stands. -/
theorem down_counters_on_time (hm : m.cartridge.Reachable d) (hvideo : m.video.Fits d) :
    (∀ r, m.cartridge.board = .fme7 r → r.KeepsTime m) ∧
    ∀ r, m.cartridge.board = .fcg r →
      r.variety = Fcg.varietyOf d ∧ r.KeepsTime m ∧
      (∃ past, m.cartridge.CameOf d past) ∧
      ∀ past, m.cartridge.CameOf d past → r.Follows past := by
  constructor
  · intro r hboard
    exact Fme7.keepsTime hm hvideo hboard
  · intro r hboard
    exact ⟨(hm.wired_fcg hboard).1, Fcg.keepsTime hm hvideo hboard, hm.exists_cameOf,
      fun past hpast => hpast.latch hboard⟩

namespace Descriptor

/-- The Bandai chip that goes through the latch. -/
def lz93d50 : Descriptor := .named "BANDAI-LZ93D50" 0x8000 0x2000

theorem lz93d50_load :
    ∃ c notes, Cartridge.load lz93d50 (.zeroed 0x8000) (.zeroed 0x2000) =
        .ok { value := .ok c, notes } ∧ c.board = .fcg { variety := 5 } :=
  Cartridge.load_of_configure (by decide) Array.size_replicate Array.size_replicate (by decide)
    ⟨_, _, rfl⟩

end Descriptor

/-- The FME-7 set to two, the high byte first: the line goes up on the third cycle, with a number
and a tile in between. The latch of the other chip is filled with 258, and its line goes up on the
last of 259 cycles. -/
theorem down_counters_on_time_smallFme7_lz93d50 :
    (∃ c notes, Cartridge.load .smallFme7 (.zeroed 0x8000) #[] = .ok { value := .ok c, notes } ∧
      ∃ armed seen, Machine.run { cartridge := c, video := .cleared .smallFme7 }
          [.event (.write 0x8000 0xF), .event (.write 0xA000 0), .event (.write 0x9FFF 0xE),
            .event (.write 0xBFFF 2), .event (.write 0x8000 0xD), .event (.write 0xA000 0x81)] =
          .ok (armed, seen) ∧
        armed.CountsDown 2 true [.event .clock, .event (.write 0x8000 0xE), .event .clock,
          .event (.readVideo 0), .event .clock]) ∧
    ∃ c notes, Cartridge.load .lz93d50 (.zeroed 0x8000) (.zeroed 0x2000) =
        .ok { value := .ok c, notes } ∧
      ∃ filled seen, Machine.run { cartridge := c, video := .cleared .lz93d50 }
          [.event (.write 0x800B 2), .event (.write 0x800C 1)] = .ok (filled, seen) ∧
        ∃ armed answer, filled.perform (.event (.write 0x800A 1)) = .ok (armed, answer) ∧
          armed.CountsDown 258 true (List.replicate 259 (.event .clock)) := by
  constructor
  · obtain ⟨c, notes, hload, hboard⟩ := Descriptor.smallFme7_load
    have hkeeps := (down_counters_on_time (m := { cartridge := c, video := .cleared .smallFme7 })
      (.load hload) ⟨rfl, rfl⟩).1 _ hboard
    obtain ⟨armed, seen, hrun, hcounts⟩ := hkeeps [.event (.write 0x8000 0xF),
      .event (.write 0xA000 0), .event (.write 0x9FFF 0xE), .event (.write 0xBFFF 2),
      .event (.write 0x8000 0xD)] (by intro s hs; simp at hs) rfl 2 (by decide) (by decide)
      (by decide) 0xA000 (by decide) 0x81 (by decide)
    refine ⟨c, notes, hload, armed, seen, hrun, hcounts _ (by intro s hs; simp at hs) ?_⟩
    intro register _
    simp [Fme7.parametersOf, Fme7.parameterOf, Command.written?, Fme7.ParameterAt]
  · obtain ⟨c, notes, hload, hboard⟩ := Descriptor.lz93d50_load
    have hc : c.Reachable .lz93d50 := .load hload
    have hbytes : c.TakesNone [.event (.write 0x800B 2), .event (.write 0x800C 1)] := by
      intro s hs
      simp at hs
    obtain ⟨filled, seen, hrun, hcame, hfits⟩ := Machine.exists_run_cameOf
      (m := { cartridge := c, video := .cleared .lz93d50 }) (.load hload) ⟨rfl, rfl⟩ hbytes
    have hkind := hcame.reachable.wellFormed.chosen.unique hc.wellFormed.chosen
    rw [hboard] at hkind
    obtain ⟨r, hfilled⟩ : ∃ r, filled.cartridge.board = .fcg r := Board.exists_of_kind hkind
    obtain ⟨hvariety, hkeeps, _, hfollows⟩ :=
      (down_counters_on_time hcame.reachable hfits).2 r hfilled
    have hchip : r.variety ≠ 4 := by
      rw [hvariety]
      decide
    have hlatched : r.Latched 0x800A := ⟨by decide, hchip⟩
    obtain ⟨armed, answer, t, hperform, _, _, hcount, hcounts⟩ := hkeeps.enable 0x800A
      (Fcg.decodes_above hchip hlatched.1) (by decide) 1 (by decide)
    have hnumber : t.count = 258 := by
      rw [hcount, if_pos hlatched]
      exact UInt16.toNat_inj.mp (hfollows _ hcame hchip)
    rw [hnumber] at hcounts
    refine ⟨c, notes, hload, filled, seen, hrun, armed, answer, hperform, hcounts _ ?_ ?_⟩
    · intro s hs
      cases List.eq_of_mem_replicate hs
    · refine Command.written_eq_nil_iff.mpr ?_
      intro command hcommand
      rw [List.eq_of_mem_replicate hcommand]
      rfl

end GamePak
