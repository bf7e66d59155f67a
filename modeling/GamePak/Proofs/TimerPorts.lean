import Mathlib.Algebra.Group.Nat.Defs
import GamePak.Proofs.Histories
import GamePak.Proofs.Interleaving
import GamePak.Proofs.Prescaler

/-!
Timers behind ports. Some chips give their timer a row of registers: one for each nibble of the
latch, then one for control bytes and one that acknowledges. Where these lie, and what a control
byte chooses besides, differs from chip to chip; what a timer makes of a run does not. A control
byte that turns it on starts it with a whole span to go, and from then on its roll-overs come on the
cycles that the span names, since an acknowledgement touches the line and the enable bit only.
-/

namespace GamePak

/-- One of the four nibbles of a word, counted from the low end. -/
def Word.digit (word : UInt16) (i : Nat) : Nat := word.toNat / 16 ^ i % 16

namespace Timer

variable {t u t' u' next last : Timer} {n : Nat} {log : List (Option Bool)}

/-! ## The line and the phase -/

/-- The next cycle rolls over. -/
def RollsOver (t : Timer) : Prop := ∃ next, t.clock = .ok (true, next)

theorem exists_cycle_of_clock {rolled : Bool} (h : t.clock = .ok (rolled, next)) :
    ∃ shown, t.cycle = .ok (shown, next) ∧ rolled = (shown == some true) := by
  rw [clock_eq_cycle] at h
  cases hcycle : t.cycle with
  | error fault =>
    rw [hcycle] at h
    cases h
  | ok shown =>
    rw [hcycle] at h
    cases h
    exact ⟨shown.1, rfl, rfl⟩

theorem rollsOver_iff {shown : Option Bool} (h : t.cycle = .ok (shown, next)) :
    t.RollsOver ↔ shown = some true := by
  have hclock : t.clock = .ok (shown == some true, next) := by
    rw [clock_eq_cycle, h]
    rfl
  constructor
  · rintro ⟨last, hrolls⟩
    have hsame := Except.ok.inj (hclock.symm.trans hrolls)
    exact beq_iff_eq.mp (congrArg Prod.fst hsame)
  · rintro rfl
    exact ⟨next, hclock⟩

/-- A cycle does the same whether the line is up or down. -/
theorem cycle_clear (t : Timer) :
    (t.clear.cycle.map fun shown => (shown.1, shown.2.clear)) =
      t.cycle.map fun shown => (shown.1, shown.2.clear) := by
  have htick : ∀ t : Timer, t.clear.ticked.clear = t.ticked.clear := fun _ => rfl
  have hon : t.clear.enabled = t.enabled := rfl
  have hmode : t.clear.mode = t.mode := rfl
  have hleft : t.clear.prescaler = t.prescaler := rfl
  unfold cycle prescale
  simp only [hon, hmode, hleft]
  cases t.enabled with
  | false => rfl
  | true =>
    cases t.mode with
    | cycle =>
      simp only [bind, Except.bind, tick_eq]
      rfl
    | scanline =>
      cases Count.subSigned t.prescaler dotsPerCycle with
      | error fault => rfl
      | ok left =>
        by_cases hlast : 0 < left
        · simp only [bind, Except.bind, hlast, if_true]
          rfl
        · simp only [bind, Except.bind, hlast, if_false, pure, Except.pure, tick_eq]
          rfl

theorem cycle_congr (hclear : t.clear = u.clear) {shown : Option Bool}
    (h : t.cycle = .ok (shown, t')) :
    ∃ u', u.cycle = .ok (shown, u') ∧ t'.clear = u'.clear := by
  have hsame := t.cycle_clear
  rw [hclear, u.cycle_clear, h] at hsame
  cases hcycle : u.cycle with
  | error fault =>
    rw [hcycle] at hsame
    cases hsame
  | ok result =>
    rw [hcycle] at hsame
    have hpair := Except.ok.inj hsame
    have hshown : result.1 = shown := congrArg Prod.fst hpair
    have hlast : result.2.clear = t'.clear := congrArg Prod.snd hpair
    rw [← hshown]
    exact ⟨result.2, rfl, hlast.symm⟩

theorem cycles_congr (hclear : t.clear = u.clear) (h : t.cycles n = .ok (log, t')) :
    ∃ u', u.cycles n = .ok (log, u') ∧ t'.clear = u'.clear := by
  induction n generalizing t u log with
  | zero =>
    cases h
    exact ⟨u, rfl, hclear⟩
  | succ n ih =>
    obtain ⟨shown, next, later, hcycle, hlater, rfl⟩ := repeated_succ_iff.mp h
    obtain ⟨next', hcycle', hnext⟩ := cycle_congr hclear hcycle
    obtain ⟨u', hlater', hlast⟩ := ih hnext hlater
    exact ⟨u', repeated_succ_iff.mpr ⟨shown, next', later, hcycle', hlater', rfl⟩, hlast⟩

theorem rollsOver_congr (hclear : t.clear = u.clear) (h : t.RollsOver) : u.RollsOver := by
  obtain ⟨next, hclock⟩ := h
  obtain ⟨shown, hcycle, hrolled⟩ := exists_cycle_of_clock hclock
  obtain ⟨next', hcycle', _⟩ := cycle_congr hclear hcycle
  exact (rollsOver_iff hcycle').mpr (beq_iff_eq.mp hrolled.symm)

/-- The last of several cycles is one of the timer that those before it leave. -/
theorem exists_cycle_of_succ {before : List (Option Bool)} (h : t.cycles (n + 1) = .ok (log, last))
    (hbefore : t.cycles n = .ok (before, u)) :
    ∃ shown, u.cycle = .ok (shown, last) ∧ log[n]? = some shown := by
  induction n generalizing t log before with
  | zero =>
    cases hbefore
    obtain ⟨shown, next, later, hcycle, hlater, rfl⟩ := repeated_succ_iff.mp h
    cases hlater
    exact ⟨shown, hcycle, rfl⟩
  | succ n ih =>
    obtain ⟨shown, next, later, hcycle, hlater, rfl⟩ := repeated_succ_iff.mp h
    obtain ⟨shown', next', later', hcycle', hlater', rfl⟩ := repeated_succ_iff.mp hbefore
    obtain ⟨rfl, rfl⟩ := Prod.mk.inj (Except.ok.inj (hcycle.symm.trans hcycle'))
    exact ih hlater hlater'

/-- The timer has been turned on with a whole span to go. -/
structure Armed (t : Timer) : Prop where
  enabled : t.enabled = true
  prescaler : t.prescaler = 341
  distance : t.distance = t.span

/-- The cycle on which such a timer rolls over for the `k`-th time. -/
def call (t : Timer) (k : Nat) : Nat :=
  match t.mode with
  | .cycle => k * t.span
  | .scanline => (341 * (k * t.span) + 2) / 3

theorem Armed.rollsOver_iff (h : t.Armed) (hcycles : t.cycles n = .ok (log, u)) :
    u.RollsOver ↔ ∃ k, 1 ≤ k ∧ n + 1 = t.call k := by
  cases hmode : t.mode with
  | cycle =>
    obtain ⟨rolled, last, hmore⟩ := exists_cycles_of_mode h.enabled hmode (n + 1)
    obtain ⟨shown, hcycle, hshown⟩ := exists_cycle_of_succ hmore hcycles
    have hrolled := rolled_iff_of_steps hmore (Nat.succ_pos n) (Nat.le_refl (n + 1))
    have hlast : shown = some true ↔ rolled[n]? = some true := by
      rw [List.getElem?_map] at hshown
      obtain ⟨answer, hanswer, rfl⟩ := Option.map_eq_some_iff.mp hshown
      rw [hanswer]
    rw [h.distance, rollsOn_self_iff] at hrolled
    simp only [Timer.rollsOver_iff hcycle, hlast, call, hmode]
    exact hrolled
  | scanline =>
    have hvalid : t.Valid := by
      unfold Valid period
      rw [h.prescaler]
      decide
    obtain ⟨more, last, hmore, _⟩ := exists_cycles_of_scanline h.enabled hmode hvalid (n + 1)
    obtain ⟨shown, hcycle, hshown⟩ := exists_cycle_of_succ hmore hcycles
    have hrolled := rolled_iff_of_full h.enabled hmode h.prescaler h.distance hmore
      (Nat.lt_succ_self n)
    rw [hshown, Option.some.injEq] at hrolled
    simp only [Timer.rollsOver_iff hcycle, call, hmode]
    exact hrolled

/-! ## What registers leave alone -/

theorem clock_kept {rolled : Bool} (h : t.clock = .ok (rolled, t')) :
    t'.latch = t.latch ∧ t'.counter = t.counter ∧ t'.enabled = t.enabled ∧
      t'.enabledAfterAck = t.enabledAfterAck ∧ t'.output = t.output := by
  have hstill := clock_still h
  have hlatch : t'.still.latch = t.still.latch := congrArg Timer.latch hstill
  have hcounter : t'.still.counter = t.still.counter := congrArg Timer.counter hstill
  have henabled : t'.still.enabled = t.still.enabled := congrArg Timer.enabled hstill
  have hagain : t'.still.enabledAfterAck = t.still.enabledAfterAck :=
    congrArg Timer.enabledAfterAck hstill
  have houtput : t'.still.output = t.still.output := congrArg Timer.output hstill
  exact ⟨hlatch, hcounter, henabled, hagain, houtput⟩

theorem writeControl_latch (t : Timer) (c : Control) : (t.writeControl c).latch = t.latch := by
  unfold writeControl
  split <;> rfl

theorem writeControl_output (t : Timer) (c : Control) : (t.writeControl c).output = t.output := by
  unfold writeControl
  split <;> rfl

/-! ## Ports -/

/-- Where the registers of a timer lie: a number of nibbles for the latch, then control, then
acknowledgement; and how the timer counts under either mode bit of a control byte. -/
structure Ports where
  digits : Nat
  register? : UInt16 → Option Nat
  mode : Bool → Mode → Mode
  counter : Bool → Counter → Counter

namespace Ports

variable (p : Ports)

/-- The address reaches this register. -/
def At (n : Nat) (addr : UInt16) : Prop := p.register? addr = some n

/-- The address reaches the latch or the control register. -/
def SetsAt (addr : UInt16) : Prop := (p.register? addr).any (· ≤ p.digits) = true

instance (n : Nat) : DecidablePred (p.At n) := fun _ => inferInstanceAs (Decidable (_ = _))

instance : DecidablePred p.SetsAt := fun _ => inferInstanceAs (Decidable (_ = _))

/-- The timer after a control byte. -/
def controlled (t : Timer) (value : UInt8) : Timer :=
  let u := t.writeControl (.ofByte value)
  { u with
    mode := p.mode (value.toNat.testBit 2) u.mode
    counter := p.counter (value.toNat.testBit 2) u.counter }

/-- What a command makes of a timer behind the ports. -/
inductive Obeys (t : Timer) : Command → Timer → Prop where
  | latch {addr : UInt16} {value : UInt8} {n : Nat} {word : UInt16} (hat : p.At n addr)
      (hn : n < p.digits) (hword : ∀ i < p.digits, Word.digit word i =
        if i = n then value.toNat % 16 else Word.digit t.latch i) :
      Obeys t (.event (.write addr value)) { t with latch := word }
  | control {addr : UInt16} {value : UInt8} (hat : p.At p.digits addr) :
      Obeys t (.event (.write addr value)) (p.controlled t value)
  | acknowledge {addr : UInt16} {value : UInt8} (hat : p.At (p.digits + 1) addr) :
      Obeys t (.event (.write addr value)) t.writeAck
  | clock {rolled : Bool} {t' : Timer} (h : t.clock = .ok (rolled, t')) :
      Obeys t (.event .clock) t'
  | other {command : Command} (hclock : command.isClock = false)
      (hwrite : ∀ n, command.written? (p.At n) = none) : Obeys t command t

/-- The timer turns into the other as the commands go by. -/
def ObeysAll (t : Timer) : List Command → Timer → Prop
  | [], t' => t' = t
  | command :: rest, t' => ∃ next, p.Obeys t command next ∧ ObeysAll next rest t'

variable {p} {commands : List Command}

theorem At.setsAt {addr : UInt16} (h : p.At n addr) (hn : n ≤ p.digits) : p.SetsAt addr := by
  rw [SetsAt, h, Option.any_some]
  exact decide_eq_true hn

theorem written?_at {addr : UInt16} (h : p.At n addr) (value : UInt8) (k : Nat) :
    (Command.event (.write addr value)).written? (p.At k) = if k = n then some value else none := by
  have hiff : p.At k addr ↔ k = n := by
    rw [At, h, Option.some.injEq]
    exact eq_comm
  simp only [Command.written?, hiff]

/-! ## The latch -/

theorem Obeys.digit {command : Command} (h : p.Obeys t command t') {i : Nat} (hi : i < p.digits) :
    Word.digit t'.latch i =
      ((command.written? (p.At i)).map (·.toNat % 16)).getD (Word.digit t.latch i) := by
  cases h with
  | @latch _ value n word hat hn hword =>
    rw [hword i hi, written?_at hat]
    split <;> rfl
  | @control _ value hat =>
    rw [written?_at hat, if_neg (Nat.ne_of_lt hi)]
    exact congrArg (Word.digit · i) (t.writeControl_latch _)
  | @acknowledge _ value hat =>
    rw [written?_at hat, if_neg (by omega)]
    rfl
  | clock hclock => exact congrArg (Word.digit · i) (clock_kept hclock).1
  | other _ hwrite =>
    rw [hwrite i]
    rfl

/-- A nibble of the latch is the last one written. -/
theorem ObeysAll.digit (h : p.ObeysAll t commands t') {i : Nat} (hi : i < p.digits) :
    Word.digit t'.latch i =
      ((Command.written (p.At i) commands).getLast?.map (·.toNat % 16)).getD
        (Word.digit t.latch i) := by
  induction commands generalizing t with
  | nil =>
    cases h
    rfl
  | cons command rest ih =>
    obtain ⟨next, hobeys, hrest⟩ := h
    rw [ih hrest, hobeys.digit hi, Command.getLast?_written_cons]
    cases (Command.written (p.At i) rest).getLast? <;> rfl

/-- The last nibbles written are those of the word. -/
def Latched (p : Ports) (commands : List Command) (word : UInt16) : Prop :=
  ∀ i < p.digits,
    (Command.written (p.At i) commands).getLast?.map (·.toNat % 16) = some (Word.digit word i)

instance (commands : List Command) (word : UInt16) : Decidable (p.Latched commands word) :=
  inferInstanceAs (Decidable (∀ i < p.digits, _ = _))

theorem ObeysAll.latched (h : p.ObeysAll t commands t') {word : UInt16}
    (hword : p.Latched commands word) {i : Nat} (hi : i < p.digits) :
    Word.digit t'.latch i = Word.digit word i := by
  rw [h.digit hi, hword i hi]
  rfl

/-! ## Turning a timer on -/

theorem controlled_latch (p : Ports) (t : Timer) (value : UInt8) :
    (p.controlled t value).latch = t.latch :=
  t.writeControl_latch _

/-- A control byte that turns the timer on loads the count. -/
theorem controlled_count {value : UInt8} (hon : value.toNat.testBit 1 = true) :
    (p.controlled t value).count = t.latch := by
  rw [controlled, t.writeControl_enable hon]

theorem controlled_enabledAfterAck {value : UInt8} (hon : value.toNat.testBit 1 = true) :
    (p.controlled t value).enabledAfterAck = value.toNat.testBit 0 := by
  rw [controlled, t.writeControl_enable hon]
  rfl

/-- Where the counter counts up, it then has a whole span to go. -/
theorem controlled_armed {value : UInt8} (hon : value.toNat.testBit 1 = true)
    {counter : Counter} (hcounter : (p.controlled t value).counter = counter)
    (hup : counter.distance t.latch = counter.span t.latch) : (p.controlled t value).Armed := by
  have henabled := t.writeControl_enable (c := .ofByte value) hon
  refine ⟨?_, ?_, ?_⟩
  · rw [controlled, henabled]
  · rw [controlled, henabled]
  · rw [distance, span, hcounter, controlled_count hon, controlled_latch, hup]

/-! ## The enable bit -/

theorem Obeys.output {command : Command} (h : p.Obeys t command t') : t'.output = t.output := by
  cases h with
  | latch => rfl
  | control => exact t.writeControl_output _
  | acknowledge => rfl
  | clock hclock => exact (clock_kept hclock).2.2.2.2
  | other => rfl

theorem ObeysAll.output (h : p.ObeysAll t commands t') : t'.output = t.output := by
  induction commands generalizing t with
  | nil => exact congrArg Timer.output h
  | cons command rest ih =>
    obtain ⟨next, hobeys, hrest⟩ := h
    exact (ih hrest).trans hobeys.output

/-- A command that does not set the timer acknowledges, clocks it or passes it by. -/
theorem Obeys.quiet_cases {command : Command} (h : p.Obeys t command t')
    (hquiet : command.written? p.SetsAt = none) :
    (command.isClock = false ∧ command.written? (p.At (p.digits + 1)) ≠ none ∧ t' = t.writeAck) ∨
    (∃ rolled, command = .event .clock ∧ t.clock = .ok (rolled, t')) ∨
    (command.isClock = false ∧ command.written? (p.At (p.digits + 1)) = none ∧ t' = t) := by
  cases h with
  | latch hat hn =>
    exact absurd (hat.setsAt (Nat.le_of_lt hn)) (Command.not_place_of_written? hquiet)
  | control hat =>
    exact absurd (hat.setsAt (Nat.le_refl _)) (Command.not_place_of_written? hquiet)
  | @acknowledge _ value hat =>
    rw [written?_at hat, if_pos rfl]
    exact .inl ⟨rfl, Option.some_ne_none value, rfl⟩
  | clock hclock => exact .inr (.inl ⟨_, rfl, hclock⟩)
  | other hclock hwrite => exact .inr (.inr ⟨hclock, hwrite _, rfl⟩)

theorem Obeys.enabled {command : Command} (h : p.Obeys t command t')
    (hquiet : command.written? p.SetsAt = none) :
    t'.enabledAfterAck = t.enabledAfterAck ∧
      t'.enabled = if command.written? (p.At (p.digits + 1)) = none then t.enabled
        else t.enabledAfterAck := by
  rcases h.quiet_cases hquiet with ⟨_, hack, rfl⟩ | ⟨rolled, rfl, hclock⟩ | ⟨_, hnone, rfl⟩
  · rw [if_neg hack]
    exact ⟨rfl, rfl⟩
  · obtain ⟨_, _, henabled, hagain, _⟩ := clock_kept hclock
    exact ⟨hagain, henabled⟩
  · rw [if_pos hnone]
    exact ⟨rfl, rfl⟩

/-- Without other settings the enable bit changes with the first acknowledgement only. -/
theorem ObeysAll.enabled (h : p.ObeysAll t commands t')
    (hquiet : Command.written p.SetsAt commands = []) :
    t'.enabledAfterAck = t.enabledAfterAck ∧
      t'.enabled = if Command.written (p.At (p.digits + 1)) commands = [] then t.enabled
        else t.enabledAfterAck := by
  induction commands generalizing t with
  | nil =>
    cases h
    exact ⟨rfl, rfl⟩
  | cons command rest ih =>
    obtain ⟨next, hobeys, hrest⟩ := h
    obtain ⟨hfirst, hlater⟩ := Command.written_cons_eq_nil hquiet
    obtain ⟨hagain, henabled⟩ := hobeys.enabled hfirst
    obtain ⟨hagain', henabled'⟩ := ih hrest hlater
    refine ⟨hagain'.trans hagain, ?_⟩
    rw [henabled', hagain, henabled, Command.written_cons]
    cases command.written? (p.At (p.digits + 1)) with
    | none => rfl
    | some value => simp

/-! ## The phase -/

/-- While the timer is on, a run that does not set it leaves it where as many cycles in a row would
have left it, but for the line. -/
theorem ObeysAll.phase (h : p.ObeysAll t commands t')
    (hquiet : Command.written p.SetsAt commands = []) (hon : t.enabled = true)
    (hack : t.enabledAfterAck = true ∨ Command.written (p.At (p.digits + 1)) commands = []) :
    ∃ log u, t.cycles (Command.clocks commands) = .ok (log, u) ∧ u.clear = t'.clear := by
  induction commands generalizing t with
  | nil =>
    cases h
    exact ⟨[], _, rfl, rfl⟩
  | cons command rest ih =>
    obtain ⟨next, hobeys, hrest⟩ := h
    obtain ⟨hfirst, hlater⟩ := Command.written_cons_eq_nil hquiet
    obtain ⟨hagain, henabled⟩ := hobeys.enabled hfirst
    have hack' : next.enabledAfterAck = true ∨
        Command.written (p.At (p.digits + 1)) rest = [] := by
      rw [hagain]
      exact hack.imp_right fun hnone => (Command.written_cons_eq_nil hnone).2
    have hon' : next.enabled = true := by
      rw [henabled]
      split
      · exact hon
      · rename_i hsome
        exact hack.resolve_right fun hnone => hsome (Command.written_cons_eq_nil hnone).1
    obtain ⟨log, u, hcycles, hclear⟩ := ih hrest hlater hon' hack'
    rcases hobeys.quiet_cases hfirst with
      ⟨hclock, _, rfl⟩ | ⟨rolled, rfl, hclock⟩ | ⟨hclock, _, rfl⟩
    · -- The enable bit is on before and after, so that the line is all that has changed.
      have hsame : t.writeAck.clear = t.clear :=
        congrArg (fun on => { t with pending := false, enabled := on }) (hon'.trans hon.symm)
      obtain ⟨u', hcycles', hclear'⟩ := cycles_congr hsame hcycles
      rw [Command.clocks, List.countP_cons_of_neg (by simp [hclock])]
      exact ⟨log, u', hcycles', hclear'.symm.trans hclear⟩
    · obtain ⟨shown, hcycle, _⟩ := exists_cycle_of_clock hclock
      refine ⟨shown :: log, u, ?_, hclear⟩
      rw [Command.clocks, List.countP_cons_of_pos rfl]
      exact repeated_succ_iff.mpr ⟨shown, next, log, hcycle, hcycles, rfl⟩
    · refine ⟨log, u, ?_, hclear⟩
      rw [Command.clocks, List.countP_cons_of_neg (by simp [hclock])]
      exact hcycles

theorem not_rollsOver (hoff : t.enabled = false) : ¬ t.RollsOver := by
  rintro ⟨next, hclock⟩
  rw [clock, hoff] at hclock
  cases hclock

/-- The roll-overs of a timer that has been turned on: they come on the cycles that its span names,
for as long as no acknowledgement turns it off. -/
theorem ObeysAll.rollsOver_iff (h : p.ObeysAll t commands t') (harmed : t.Armed)
    (hquiet : Command.written p.SetsAt commands = []) :
    t'.RollsOver ↔ (∃ k, 1 ≤ k ∧ Command.clocks commands + 1 = t.call k) ∧
      (t.enabledAfterAck = true ∨ Command.written (p.At (p.digits + 1)) commands = []) := by
  by_cases hack : t.enabledAfterAck = true ∨ Command.written (p.At (p.digits + 1)) commands = []
  · obtain ⟨log, u, hcycles, hclear⟩ := h.phase hquiet harmed.enabled hack
    rw [and_iff_left hack, ← harmed.rollsOver_iff hcycles]
    exact ⟨rollsOver_congr hclear.symm, rollsOver_congr hclear⟩
  · obtain ⟨hagain, hsome⟩ := not_or.mp hack
    have hoff : t'.enabled = false := by
      rw [(h.enabled hquiet).2, if_neg hsome]
      exact Bool.eq_false_iff.mpr hagain
    exact iff_of_false (not_rollsOver hoff) fun hrolls => hack hrolls.2

/-! ## The high byte -/

theorem highByte_ticked (hcounter : t.counter = .up8Low) :
    t.ticked.count.toNat / 256 = t.count.toNat / 256 := by
  have hsame : t.ticked.reloaded.toNat = t.reloaded.toNat := congrArg UInt16.toNat t.reloaded_ticked
  have hcounter' : t.ticked.counter = .up8Low := hcounter
  rw [reloaded, reloaded, hcounter, hcounter', Counter.toNat_reloaded_up8Low,
    Counter.toNat_reloaded_up8Low] at hsame
  have hlatch : t.ticked.latch = t.latch := rfl
  rw [hlatch] at hsame
  omega

/-- Where the low byte counts alone, the high byte stays. -/
theorem ObeysAll.highByte (h : p.ObeysAll t commands t')
    (hquiet : Command.written p.SetsAt commands = []) (hcounter : t.counter = .up8Low) :
    t'.count.toNat / 256 = t.count.toNat / 256 := by
  induction commands generalizing t with
  | nil =>
    cases h
    rfl
  | cons command rest ih =>
    obtain ⟨next, hobeys, hrest⟩ := h
    obtain ⟨hfirst, hlater⟩ := Command.written_cons_eq_nil hquiet
    rcases hobeys.quiet_cases hfirst with ⟨_, _, rfl⟩ | ⟨rolled, rfl, hclock⟩ | ⟨_, _, rfl⟩
    · exact (ih hrest hlater hcounter :)
    · rw [ih hrest hlater ((clock_kept hclock).2.1.trans hcounter)]
      obtain ⟨shown, hcycle, _⟩ := exists_cycle_of_clock hclock
      obtain ⟨prescaler, ⟨_, rfl⟩ | ⟨_, rfl⟩⟩ := cycle_cases hcycle
      · rfl
      · exact highByte_ticked hcounter
    · exact ih hrest hlater hcounter

/-! ## Timers that have been turned off -/

/-- Something among the commands can turn a timer on again: a control byte that does so at once, or
an acknowledgement where the last control byte before it asked for that. -/
def Rearmed (p : Ports) (commands : List Command) : Prop :=
  (∃ value ∈ Command.written (p.At p.digits) commands, value.toNat.testBit 1 = true) ∨
    ∃ before addr value later control, commands = before ++ .event (.write addr value) :: later ∧
      p.At (p.digits + 1) addr ∧
      (Command.written (p.At p.digits) before).getLast? = some control ∧
      control.toNat.testBit 0 = true

/-- A timer that is off, with the line down, stays so unless the command turns it on. -/
theorem Obeys.idle {command : Command} (h : p.Obeys t command t') (hoff : t.enabled = false)
    (hdown : t.pending = false) :
    (∃ value, command.written? (p.At p.digits) = some value ∧ value.toNat.testBit 1 = true) ∨
      (∃ addr value, command = .event (.write addr value) ∧ p.At (p.digits + 1) addr ∧
        t.enabledAfterAck = true) ∨
      t'.enabled = false ∧ t'.pending = false ∧ t'.enabledAfterAck =
        ((command.written? (p.At p.digits)).map (·.toNat.testBit 0)).getD t.enabledAfterAck := by
  cases h with
  | @latch _ value n word hat hn hword =>
    rw [written?_at hat, if_neg (Nat.ne_of_gt hn)]
    exact .inr (.inr ⟨hoff, hdown, rfl⟩)
  | @control _ value hat =>
    rw [written?_at hat, if_pos rfl]
    cases hbit : value.toNat.testBit 1 with
    | true => exact .inl ⟨value, rfl, hbit⟩
    | false =>
      have hwritten : t.writeControl (.ofByte value) = { t with
          enabledAfterAck := value.toNat.testBit 0, enabled := false, pending := false } := by
        rw [writeControl, Control.ofByte, hbit]
        rfl
      rw [controlled, hwritten]
      exact .inr (.inr ⟨rfl, rfl, rfl⟩)
  | @acknowledge addr value hat =>
    cases hagain : t.enabledAfterAck with
    | true => exact .inr (.inl ⟨addr, value, rfl, hat, rfl⟩)
    | false =>
      rw [written?_at hat, if_neg (Nat.ne_of_lt (Nat.lt_succ_self _))]
      exact .inr (.inr ⟨hagain, rfl, hagain⟩)
  | clock hclock =>
    rw [Timer.clock, hoff] at hclock
    cases hclock
    exact .inr (.inr ⟨hoff, hdown, rfl⟩)
  | other _ hwrite =>
    rw [hwrite]
    exact .inr (.inr ⟨hoff, hdown, rfl⟩)

/-- What turns such a timer on again in a run; the bit that it keeps for an acknowledgement counts
where no control byte has come before. -/
theorem ObeysAll.turned_on (h : p.ObeysAll t commands t') (hoff : t.enabled = false)
    (hdown : t.pending = false) (hlast : t'.enabled = true ∨ t'.pending = true) :
    (∃ value ∈ Command.written (p.At p.digits) commands, value.toNat.testBit 1 = true) ∨
      ∃ before addr value later, commands = before ++ .event (.write addr value) :: later ∧
        p.At (p.digits + 1) addr ∧
        ((Command.written (p.At p.digits) before).getLast?.map (·.toNat.testBit 0)).getD
          t.enabledAfterAck = true := by
  induction commands generalizing t with
  | nil =>
    cases h
    rcases hlast with hon | hup
    · exact absurd (hoff.symm.trans hon) Bool.false_ne_true
    · exact absurd (hdown.symm.trans hup) Bool.false_ne_true
  | cons command rest ih =>
    obtain ⟨next, hobeys, hrest⟩ := h
    rcases hobeys.idle hoff hdown with
      ⟨value, hvalue, hbit⟩ | ⟨addr, value, rfl, hat, hagain⟩ | ⟨hoff', hdown', hagain⟩
    · refine .inl ⟨value, ?_, hbit⟩
      rw [Command.written_cons, hvalue]
      exact List.mem_cons_self ..
    · exact .inr ⟨[], addr, value, rest, rfl, hat, hagain⟩
    · rcases ih hrest hoff' hdown' with
        ⟨value, hmem, hbit⟩ | ⟨before, addr, value, later, rfl, hat, hbit⟩
      · refine .inl ⟨value, ?_, hbit⟩
        rw [Command.written_cons]
        exact List.mem_append_right _ hmem
      · refine .inr ⟨command :: before, addr, value, later, rfl, hat, ?_⟩
        rw [hagain] at hbit
        rw [Command.getLast?_written_cons]
        cases hcontrol : (Command.written (p.At p.digits) before).getLast? with
        | none =>
          rw [hcontrol] at hbit
          exact hbit
        | some control =>
          rw [hcontrol] at hbit
          exact hbit

/-- After an acknowledgement has turned the timer off for good, it neither rolls over nor holds the
line up before something turns it on again. -/
theorem ObeysAll.rearmed (h : p.ObeysAll t.writeAck commands t')
    (hagain : t.enabledAfterAck = false) (hlast : t'.RollsOver ∨ t'.pending = true) :
    p.Rearmed commands := by
  have hon : t'.enabled = true ∨ t'.pending = true := by
    refine hlast.imp_left fun hrolls => ?_
    cases hon : t'.enabled with
    | true => rfl
    | false => exact absurd hrolls (not_rollsOver hon)
  refine (h.turned_on hagain rfl hon).imp_right ?_
  rintro ⟨before, addr, value, later, heq, hat, hbit⟩
  have hbit : ((Command.written (p.At p.digits) before).getLast?.map (·.toNat.testBit 0)).getD
      t.enabledAfterAck = true := hbit
  rw [hagain] at hbit
  cases hcontrol : (Command.written (p.At p.digits) before).getLast? with
  | none =>
    rw [hcontrol] at hbit
    cases hbit
  | some control =>
    rw [hcontrol] at hbit
    exact ⟨before, addr, value, later, control, heq, hat, hcontrol, hbit⟩

theorem Obeys.elsewhere {addr : UInt16} (h : p.register? addr = none) (t : Timer)
    (value : UInt8) : p.Obeys t (.event (.write addr value)) t := by
  refine .other rfl fun n => if_neg ?_
  rw [At, h]
  exact (Option.some_ne_none n).symm

/-! ## Boards -/

/-- The boards of this sort have their timer behind the ports. -/
structure Drives (p : Ports) (On : Board → Prop) : Prop where
  moves : ∀ {b b' : Board} {command : Command} {t : Timer}, On b → b.timer? = some t →
    command.Moves b b' → On b' ∧ ∃ t', b'.timer? = some t' ∧ p.Obeys t command t'
  kind : ∀ {b : Board}, On b → b.kind ≠ .mmc3
  clears : ∀ {b : Board} {addr : UInt16}, On b → p.At (p.digits + 1) addr → b.Clears addr.toNat

/-- It is enough to look at what the board does with writes. -/
theorem Drives.of_writes {On : Board → Prop}
    (hkind : ∀ {b}, On b → b.kind ≠ .mmc2 ∧ b.kind ≠ .mmc3)
    (hmap : ∀ {b} (f : Timer → Timer), On b → On (b.mapTimer f))
    (hwrites : ∀ {b t addr value reply}, On b → b.timer? = some t →
      b.write addr value = .ok reply → On reply.registers ∧
        ∃ t', reply.registers.timer? = some t' ∧ p.Obeys t (.event (.write addr value)) t')
    (hclears : ∀ {b} {addr : UInt16}, On b → p.At (p.digits + 1) addr → b.Clears addr.toNat) :
    p.Drives On where
  moves := by
    intro b b' command t hb ht hmoves
    obtain ⟨hreads, hscans⟩ := hkind hb
    cases hmoves.reacts with
    | write hreply heq =>
      rw [heq]
      exact hwrites hb ht hreply
    | clock _ hu hclock heq =>
      obtain rfl := Option.some.inj (ht.symm.trans hu)
      rw [heq, Board.timer?_mapTimer, ht]
      exact ⟨hmap _ hb, _, rfl, .clock hclock⟩
    | read hread _ => exact absurd hread hreads
    | scanline hscan _ => exact absurd hscan hscans
    | ignored hignored heq =>
      rw [heq]
      exact ⟨hb, t, ht, .other (hignored.isClock hscans ht) fun n => hignored.written? _⟩
  kind hb := (hkind hb).2
  clears := hclears

theorem Drives.passes {On : Board → Prop} (hp : p.Drives On) {b b' : Board} (hb : On b)
    (ht : b.timer? = some t) (h : b.Passes commands b') :
    On b' ∧ ∃ t', b'.timer? = some t' ∧ p.ObeysAll t commands t' := by
  induction commands generalizing b t with
  | nil =>
    cases h
    exact ⟨hb, t, ht, rfl⟩
  | cons command rest ih =>
    obtain ⟨next, hmoves, hrest⟩ := h
    obtain ⟨hnext, u, hu, hobeys⟩ := hp.moves hb ht hmoves
    obtain ⟨hlast, t', ht', hall⟩ := ih hnext hu hrest
    exact ⟨hlast, t', ht', u, hobeys, hall⟩

theorem Obeys.of_control {addr : UInt16} {value : UInt8} (hat : p.At p.digits addr)
    (h : p.Obeys t (.event (.write addr value)) t') : t' = p.controlled t value := by
  have hunique : ∀ {n}, p.At n addr → n = p.digits :=
    fun hn => Option.some.inj (hn.symm.trans hat)
  cases h with
  | latch hn hlt => exact absurd (hunique hn) (Nat.ne_of_lt hlt)
  | control => rfl
  | acknowledge hn => exact absurd (hunique hn) (Nat.succ_ne_self _)
  | other _ hwrite =>
    have hnone := hwrite p.digits
    rw [written?_at hat, if_pos rfl] at hnone
    cases hnone

theorem Obeys.of_acknowledge {addr : UInt16} {value : UInt8} (hat : p.At (p.digits + 1) addr)
    (h : p.Obeys t (.event (.write addr value)) t') : t' = t.writeAck := by
  have hunique : ∀ {n}, p.At n addr → n = p.digits + 1 :=
    fun hn => Option.some.inj (hn.symm.trans hat)
  cases h with
  | latch hn hlt => exact absurd (hunique hn) (Nat.ne_of_lt (Nat.lt_succ_of_lt hlt))
  | control hn => exact absurd (hunique hn) (Nat.succ_ne_self _).symm
  | acknowledge => rfl
  | other _ hwrite =>
    have hnone := hwrite (p.digits + 1)
    rw [written?_at hat, if_pos rfl] at hnone
    cases hnone

end Ports

end Timer

namespace Machine

variable {d : Descriptor} {m : Machine} {t : Timer}

/-- The next cycle rolls over if and only if this is so, and raises the line then. -/
structure NextCycle (m : Machine) (due : Prop) : Prop where
  rolls : (∃ t ∈ m.cartridge.board.timer?, t.RollsOver) ↔ due
  line : ∃ next answer, m.perform (.event .clock) = .ok (next, answer) ∧
    (next.cartridge.irqPending = true ↔ due ∨ m.cartridge.irqPending = true)

theorem nextCycle (hm : m.cartridge.Reachable d) (hvideo : m.video.Fits d)
    (ht : m.cartridge.board.timer? = some t) (hkind : m.cartridge.board.kind ≠ .mmc3)
    (houtput : t.output = true) {due : Prop} (hrolls : t.RollsOver ↔ due) :
    m.NextCycle due := by
  obtain ⟨next, answer, hperform, _⟩ := exists_perform ⟨hm.wellFormed, hvideo⟩ (.event .clock)
  have hline := perform_pending hm.wired hperform (by simp)
  have hmoves : m.cartridge.board.clock = .ok next.cartridge.board :=
    perform_moves hm hperform (by simp)
  have hdue : t.RollsOver ↔ t.Due := by
    rcases Board.clock_cases hmoves with ⟨_, hidle⟩ | ⟨_, u, rolled, u', hu, hclock, _⟩
    · rw [ht] at hidle
      exact absurd hidle (by simp [hkind])
    · obtain rfl : t = u := Option.some.inj (ht.symm.trans hu)
      rw [← (Timer.clock_pending hclock).1]
      constructor
      · rintro ⟨_, hrolled⟩
        rw [hclock] at hrolled
        cases hrolled
        rfl
      · rintro rfl
        exact ⟨u', hclock⟩
  have hfires : m.cartridge.board.Fires (.event .clock) ↔ due := by
    rw [← hrolls, hdue]
    simp [Board.Fires, hkind, ht, houtput]
  refine ⟨?_, next, answer, hperform, ?_⟩
  · rw [ht, ← hrolls]
    simp
  · rw [hline, hfires]
    exact or_congr_right (and_iff_left not_false)

/-- A write at one of these addresses takes the line down. -/
def ClearedAt (m : Machine) (place : UInt16 → Prop) : Prop :=
  ∀ addr value, place addr → ∃ next answer,
    m.perform (.event (.write addr value)) = .ok (next, answer) ∧ next.cartridge.irqPending = false

theorem clearedAt (hm : m.cartridge.Reachable d) (hvideo : m.video.Fits d)
    {place : UInt16 → Prop} (hplace : ∀ addr, place addr → m.cartridge.board.Clears addr.toNat) :
    m.ClearedAt place := by
  intro addr value haddr
  obtain ⟨next, answer, hperform, _⟩ :=
    exists_perform ⟨hm.wellFormed, hvideo⟩ (.event (.write addr value))
  refine ⟨next, answer, hperform, ?_⟩
  have hline := perform_pending hm.wired hperform (by simp)
  refine Bool.eq_false_iff.mpr fun hup => ?_
  rcases hline.mp hup with hfires | ⟨_, hkept⟩
  · exact hfires
  · exact hkept (hplace addr haddr)

variable {p : Timer.Ports} {On : Board → Prop}

open Command (written clocks)

/-- A timer that has been turned on keeps time in every run that does not set it. -/
theorem exists_timed_run (hp : p.Drives On) (hm : m.cartridge.Reachable d)
    (hvideo : m.video.Fits d) (hb : On m.cartridge.board)
    (ht : m.cartridge.board.timer? = some t) (harmed : t.Armed) (houtput : t.output = true)
    {later : List Command} (hlater : m.cartridge.TakesNone later)
    (hquiet : written p.SetsAt later = []) :
    ∃ last seen t', m.run later = .ok (last, seen) ∧ On last.cartridge.board ∧
      last.cartridge.board.timer? = some t' ∧ p.ObeysAll t later t' ∧
      last.NextCycle ((∃ k, 1 ≤ k ∧ clocks later + 1 = t.call k) ∧
        (t.enabledAfterAck = true ∨ written (p.At (p.digits + 1)) later = [])) ∧
      last.ClearedAt (p.At (p.digits + 1)) := by
  obtain ⟨last, seen, hrun, hreachable, hfits, hpasses⟩ := exists_passing_run hm hvideo hlater
  obtain ⟨hlast, t', ht', hobeys⟩ := hp.passes hb ht hpasses
  refine ⟨last, seen, t', hrun, hlast, ht', hobeys, ?_, ?_⟩
  · exact nextCycle hreachable hfits ht' (hp.kind hlast) (hobeys.output.trans houtput)
      (hobeys.rollsOver_iff harmed hquiet)
  · exact clearedAt hreachable hfits fun addr hat => hp.clears hlast hat

/-- A timer that an acknowledgement has turned off does nothing before it is turned on again. -/
theorem exists_stopped_run (hp : p.Drives On) (hm : m.cartridge.Reachable d)
    (hvideo : m.video.Fits d) (hb : On m.cartridge.board)
    (ht : m.cartridge.board.timer? = some t) (hagain : t.enabledAfterAck = false)
    {before later : List Command} (hrestore : m.cartridge.TakesNone (before ++ later))
    (hquiet : written p.SetsAt before = []) {addr : UInt16} (hat : p.At (p.digits + 1) addr)
    (value : UInt8) :
    ∃ last seen, m.run (before ++ .event (.write addr value) :: later) = .ok (last, seen) ∧
      ((∃ t ∈ last.cartridge.board.timer?, t.RollsOver) ∨ last.cartridge.irqPending = true →
        p.Rearmed later) := by
  have hcommands : m.cartridge.TakesNone (before ++ .event (.write addr value) :: later) :=
    fun s hs => hrestore s (by simpa using hs)
  obtain ⟨last, seen, hrun, _, _, hpasses⟩ := exists_passing_run hm hvideo hcommands
  obtain ⟨mid, hbefore, hafter⟩ := Board.passes_append.mp hpasses
  obtain ⟨hmid, u, hu, hobeys⟩ := hp.passes hb ht hbefore
  obtain ⟨_, t', ht', next, hack, hlater⟩ := hp.passes hmid hu hafter
  obtain rfl := hack.of_acknowledge hat
  refine ⟨last, seen, hrun, ?_⟩
  intro hlast
  refine hlater.rearmed ((hobeys.enabled hquiet).1.trans hagain) ?_
  rw [Cartridge.irqPending, Board.irqPending, ht'] at hlast
  refine hlast.imp_left ?_
  rintro ⟨_, ⟨⟩, hrolls⟩
  exact hrolls

/-- A run that ends with a control byte leaves the timer as that byte sets it. -/
theorem exists_controlled_run (hp : p.Drives On) (hm : m.cartridge.Reachable d)
    (hvideo : m.video.Fits d) (hb : On m.cartridge.board)
    (ht : m.cartridge.board.timer? = some t) {setup : List Command}
    (hsetup : m.cartridge.TakesNone setup) {addr : UInt16} (hat : p.At p.digits addr)
    (value : UInt8) :
    ∃ last seen u, m.run (setup ++ [.event (.write addr value)]) = .ok (last, seen) ∧
      last.cartridge.Reachable d ∧ last.video.Fits d ∧ On last.cartridge.board ∧
      last.cartridge.board.timer? = some (p.controlled u value) ∧ p.ObeysAll t setup u := by
  have hcommands : m.cartridge.TakesNone (setup ++ [.event (.write addr value)]) :=
    fun s hs => hsetup s (by simpa using hs)
  obtain ⟨last, seen, hrun, hreachable, hfits, hpasses⟩ := exists_passing_run hm hvideo hcommands
  obtain ⟨mid, hbefore, hafter⟩ := Board.passes_append.mp hpasses
  obtain ⟨hmid, u, hu, hobeys⟩ := hp.passes hb ht hbefore
  obtain ⟨hlast, t', ht', next, hcontrol, hend⟩ := hp.passes hmid hu hafter
  obtain rfl := hcontrol.of_control hat
  rw [show t' = p.controlled u value from hend] at ht'
  exact ⟨last, seen, u, hrun, hreachable, hfits, hlast, ht', hobeys⟩

end Machine

end GamePak
