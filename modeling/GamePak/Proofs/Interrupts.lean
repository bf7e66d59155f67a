import GamePak.Proofs.Wiring

/-!
The interrupt line. A cycle on which the counter rolls over raises it, on MMC3 a scanline that
leaves the counter at zero; a write to one of the board's acknowledging registers takes it down.
Nothing else moves it, so that it tells, at the end of a run, whether something has fired since
the last such write.
-/

namespace GamePak

variable {d : Descriptor}

/-! ## Timers -/

namespace Timer

/-- The next count rolls over. -/
def Counter.AtEnd (c : Counter) (count : UInt16) : Prop :=
  match c with
  | up8 => count % 256 = 255
  | up16 => count = 0xFFFF
  | up8Low => count % 256 = 255
  | down16 => count = 0
  | down16Zero => count = 0

/-- The next cycle counts, and the count rolls over. -/
def Due (t : Timer) : Prop :=
  t.enabled = true ∧ (t.mode = .cycle ∨ t.prescaler ≤ dotsPerCycle) ∧ t.counter.AtEnd t.count

instance (c : Counter) (count : UInt16) : Decidable (c.AtEnd count) := by
  cases c <;> unfold Counter.AtEnd <;> infer_instance

instance (t : Timer) : Decidable t.Due := by
  unfold Due
  infer_instance

theorem Counter.step_rolled {c : Counter} {latch count count' : UInt16} {rolled : Bool}
    (h : c.step latch count = .ok (rolled, count')) : rolled = true ↔ c.AtEnd count := by
  -- A counter that counts up either reloads or takes the next value.
  have hup : ∀ {P : Prop} [Decidable P] (reloaded : UInt16),
      (if P then .ok (true, reloaded) else (Count.next count).map (false, ·)) =
        Except.ok (ε := Fault) (rolled, count') → (rolled = true ↔ P) := by
    intro P _ reloaded h
    by_cases hP : P
    · rw [if_pos hP] at h
      cases h
      exact iff_of_true rfl hP
    · rw [if_neg hP] at h
      refine iff_of_false ?_ hP
      unfold Count.next at h
      split at h
      · cases h
      · cases h
        simp
  cases c with
  | up8 => exact hup _ h
  | up16 => exact hup _ h
  | up8Low => exact hup _ h
  | down16 =>
    cases h
    rw [decide_eq_true_iff]
    constructor
    · intro hlast
      have hback : count - 1 + 1 = 0xFFFF + 1 := congrArg (· + 1) hlast
      rw [UInt16.sub_add_cancel] at hback
      exact hback
    · intro hzero
      rw [hzero]
      rfl
  | down16Zero =>
    cases h
    exact decide_eq_true_iff

variable {t t' : Timer} {rolled : Bool}

theorem tick_pending (h : t.tick = .ok (rolled, t')) :
    (rolled = true ↔ t.counter.AtEnd t.count) ∧
      (t'.pending = true ↔ t.pending = true ∨ t.counter.AtEnd t.count ∧ t.output = true) := by
  obtain ⟨⟨stepped, count⟩, hstep, heq⟩ := Fault.bind_eq_ok_iff.mp h
  cases heq
  have hrolled := Counter.step_rolled hstep
  refine ⟨hrolled, ?_⟩
  simp only [Bool.or_eq_true, Bool.and_eq_true, hrolled]

theorem clock_pending (h : t.clock = .ok (rolled, t')) :
    (rolled = true ↔ t.Due) ∧
      (t'.pending = true ↔ t.pending = true ∨ t.Due ∧ t.output = true) := by
  -- Either nothing is counted, or the cycle is a tick and what is due is the roll-over.
  have hstill : ¬ t.Due → rolled = false → t'.pending = t.pending →
      (rolled = true ↔ t.Due) ∧
        (t'.pending = true ↔ t.pending = true ∨ t.Due ∧ t.output = true) := by
    intro hdue hrolled hpending
    simp [hdue, hrolled, hpending]
  have hcounts : t.enabled = true → (t.mode = .cycle ∨ t.prescaler ≤ dotsPerCycle) →
      (t.Due ↔ t.counter.AtEnd t.count) :=
    fun hon hmode => ⟨fun hdue => hdue.2.2, fun hend => ⟨hon, hmode, hend⟩⟩
  unfold clock at h
  split at h
  · rename_i hoff
    cases h
    refine hstill ?_ rfl rfl
    intro hdue
    rw [hdue.1] at hoff
    cases hoff
  · rename_i hon
    have hon : t.enabled = true := by simpa using hon
    split at h
    · rename_i hmode
      rw [hcounts hon (.inl hmode)]
      exact tick_pending h
    · rename_i hmode
      obtain ⟨left, hleft, h⟩ := Fault.bind_eq_ok_iff.mp h
      have hleft : left = t.prescaler - dotsPerCycle := by
        unfold Count.subSigned at hleft
        split at hleft
        · cases hleft
        · exact (Except.ok.inj hleft).symm
      split at h
      · cases h
        refine hstill ?_ rfl rfl
        intro hdue
        rcases hdue.2.1 with hcycle | hlow
        · rw [hcycle] at hmode
          cases hmode
        · omega
      · rw [hcounts hon (.inr (by omega))]
        have hticked := tick_pending h
        exact hticked

theorem writeControl_pending (t : Timer) (c : Control) : (t.writeControl c).pending = false := by
  unfold writeControl
  split <;> rfl

end Timer

/-! ## Writes, by chip -/

/-- A write either leaves the line, at an address that does not clear it, or clears it. -/
theorem line_kept {line : Bool} {Clears : Prop} (h : ¬ Clears) :
    line = true ↔ line = true ∧ ¬ Clears :=
  (and_iff_left h).symm

theorem line_cleared {line : Bool} {Clears : Prop} (h : Clears) :
    false = true ↔ line = true ∧ ¬ Clears :=
  iff_of_false Bool.false_ne_true fun hline => hline.2 h

/-- The registers that clear the line. -/
def Mmc3.Clears (addr : Nat) : Prop := 0xE000 ≤ addr ∧ addr % 2 = 0

theorem Mmc3.write_pending (r : Mmc3) (addr : Nat) (value : UInt8) :
    (r.write addr value).registers.timer.pending = true ↔
      r.timer.pending = true ∧ ¬ Clears addr := by
  unfold write writeEven writeOdd
  repeat' split
  all_goals first
    | exact line_kept (by unfold Clears; omega)
    | exact line_cleared (by unfold Clears; omega)

def Fcg.Clears (r : Fcg) (addr : Nat) : Prop := r.Decodes addr ∧ addr % 16 = 0xA

theorem Fcg.write_pending (r : Fcg) (addr : Nat) (value : UInt8) :
    (r.write addr value).registers.timer.pending = true ↔
      r.timer.pending = true ∧ ¬ r.Clears addr := by
  by_cases hdecodes : r.Decodes addr
  · by_cases hregister : addr % 16 = 0xA
    · have hclear : (r.write addr value).registers.timer.pending = false := by
        unfold write writeEnable
        rw [if_neg (not_not_intro hdecodes), hregister]
        simp only
        split <;> rfl
      rw [hclear]
      exact line_cleared ⟨hdecodes, hregister⟩
    · refine Iff.trans ?_ (line_kept fun h => hregister h.2)
      unfold write writeLow writeHigh
      rw [if_neg (not_not_intro hdecodes)]
      repeat' split
      all_goals first | rfl | contradiction
  · refine Iff.trans ?_ (line_kept fun h => hdecodes h.1)
    unfold write
    rw [if_pos hdecodes]

def Fme7.Clears (r : Fme7) (addr : Nat) : Prop :=
  0xA000 ≤ addr ∧ addr < 0xC000 ∧ r.command.toNat % 16 = 0xD

theorem Fme7.write_pending (r : Fme7) (addr : Nat) (value : UInt8) :
    (r.write addr value).registers.timer.pending = true ↔
      r.timer.pending = true ∧ ¬ r.Clears addr := by
  unfold write parameter writeWorkArea writeSwitches
  repeat' split
  all_goals first
    | exact line_kept (by unfold Clears; omega)
    | exact line_cleared (by unfold Clears; omega)
    | exact line_kept fun h => absurd h.2.2 (by assumption)

def Vrc3.Clears (addr : Nat) : Prop := 0xC000 ≤ addr ∧ addr < 0xE000

theorem Vrc3.write_pending (r : Vrc3) (addr : Nat) (value : UInt8) :
    (r.write addr value).registers.timer.pending = true ↔
      r.timer.pending = true ∧ ¬ Clears addr := by
  have hcontrol : (r.writeControl value).timer.pending = false :=
    r.timer.writeControl_pending (.ofByte value)
  unfold write writeLatch
  repeat' split
  all_goals first
    | exact line_kept (by unfold Clears; omega)
    | exact line_cleared (by unfold Clears; omega)
    | (rw [hcontrol]; exact line_cleared (by unfold Clears; omega))

def Vrc4.Clears (r : Vrc4) (addr : Nat) : Prop :=
  0xF000 ≤ addr ∧ (r.register addr = 2 ∨ r.register addr = 3)

theorem Vrc4.writeTimer_pending (t : Timer) {register : Nat} (h : register < 4) (value : UInt8) :
    (writeTimer t register value).pending = true ↔
      t.pending = true ∧ ¬ (register = 2 ∨ register = 3) := by
  obtain rfl | rfl | rfl | rfl :
      register = 0 ∨ register = 1 ∨ register = 2 ∨ register = 3 := by omega
  · exact line_kept (by decide)
  · exact line_kept (by decide)
  · simp only [writeTimer, t.writeControl_pending]
    exact line_cleared (by decide)
  · exact line_cleared (by decide)

theorem Vrc4.write_pending (r : Vrc4) (addr : Nat) (value : UInt8) :
    (r.write addr value).registers.timer.any (·.pending) = true ↔
      r.timer.any (·.pending) = true ∧ ¬ r.Clears addr := by
  by_cases hlow : addr < 0xF000
  · refine Iff.trans ?_ (line_kept fun h => absurd h.1 (by omega))
    unfold write writeChr
    simp only
    repeat' split
    all_goals rfl
  · have hwrite : (r.write addr value).registers.timer =
        r.timer.map (writeTimer · (r.register addr) value) := by
      unfold write
      simp only
      rw [if_neg (by omega), if_neg (by omega), if_neg (by omega), if_neg (by omega),
        if_neg (by omega), if_neg (by omega)]
    have hclears : r.Clears addr ↔ r.register addr = 2 ∨ r.register addr = 3 :=
      and_iff_right (by omega)
    rw [hwrite, hclears]
    cases r.timer with
    | none => simp
    | some t => exact writeTimer_pending t (r.register_lt addr) value

/-! ## What raises the line and what clears it -/

namespace Board

variable {b b' : Board}

/-- A write to this address clears the line. -/
def Clears (b : Board) (addr : Nat) : Prop :=
  match b with
  | mmc3 _ => Mmc3.Clears addr
  | fcg r => r.Clears addr
  | vrc4 r => r.Clears addr
  | fme7 r => r.Clears addr
  | vrc3 _ => Vrc3.Clears addr
  | _ => False

/-- The command raises the line: a cycle on which the counter rolls over with its output on, or, on
MMC3, a scanline that leaves an enabled counter at zero. -/
def Fires (b : Board) : Command → Prop
  | .event .clock => b.kind ≠ .mmc3 ∧ ∃ t ∈ b.timer?, t.Due ∧ t.output = true
  | .event .scanline =>
    ∃ r, b = mmc3 r ∧ r.counted.timer.enabled = true ∧ r.counted.timer.count = 0
  | _ => False

/-- The command clears the line. -/
def Acknowledges (b : Board) : Command → Prop
  | .event (.write addr _) => b.Clears addr.toNat
  | _ => False

theorem write_pending {addr : UInt16} {value : UInt8} {reply : Reply Board}
    (h : b.write addr value = .ok reply) :
    reply.registers.irqPending = true ↔ b.irqPending = true ∧ ¬ b.Clears addr.toNat := by
  cases b with
  | mmc1 r =>
    obtain ⟨own, _, heq⟩ := Fault.bind_eq_ok_iff.mp h
    cases heq
    exact line_kept not_false
  | mmc3 r =>
    cases h
    exact r.write_pending addr.toNat value
  | fcg r =>
    cases h
    exact r.write_pending addr.toNat value
  | vrc4 r =>
    cases h
    exact r.write_pending addr.toNat value
  | fme7 r =>
    cases h
    exact r.write_pending addr.toNat value
  | vrc3 r =>
    cases h
    exact r.write_pending addr.toNat value
  | _ =>
    cases h
    exact line_kept not_false

theorem timer?_mapTimer (b : Board) (f : Timer → Timer) :
    (b.mapTimer f).timer? = b.timer?.map f := by
  cases b <;> rfl

theorem clock_pending (h : b.clock = .ok b') :
    b'.irqPending = true ↔ b.Fires (.event .clock) ∨ b.irqPending = true := by
  rcases clock_cases h with ⟨rfl, hidle⟩ | ⟨hkind, t, rolled, t', ht, hclock, rfl⟩
  · refine (or_iff_right ?_).symm
    rintro ⟨hkind, t, ht, _⟩
    rcases hidle with hmmc3 | hnone
    · exact hkind hmmc3
    · rw [hnone] at ht
      cases ht
  · have hfires : b.Fires (.event .clock) ↔ t.Due ∧ t.output = true := by
      simp [Fires, hkind, ht]
    rw [irqPending, irqPending, timer?_mapTimer, hfires, ht, or_comm]
    exact (Timer.clock_pending hclock).2

theorem scanline_pending (h : b.scanline = .ok b') :
    b'.irqPending = true ↔ b.Fires (.event .scanline) ∨ b.irqPending = true := by
  cases b with
  | mmc3 r =>
    have hfires : (mmc3 r).Fires (.event .scanline) ↔
        r.counted.timer.enabled = true ∧ r.counted.timer.count = 0 := by
      simp [Fires]
    have hline : r.counted.timer.pending = r.timer.pending := by
      unfold Mmc3.counted
      split <;> rfl
    obtain ⟨own, hown, heq⟩ := Fault.bind_eq_ok_iff.mp h
    cases heq
    rw [Mmc3.scanline_eq] at hown
    cases hown
    rw [hfires]
    split
    · rename_i hfired
      exact iff_of_true rfl (.inl hfired)
    · rename_i hquiet
      rw [or_iff_right hquiet]
      exact Bool.eq_iff_iff.mp hline
  | _ =>
    cases h
    refine (or_iff_right ?_).symm
    rintro ⟨r, heq, _⟩
    cases heq

theorem afterRead_pending (b : Board) (addr : Nat) :
    (b.afterRead addr).registers.irqPending = b.irqPending := by
  cases b <;> rfl

/-! ## The line and the processor -/

theorem soldered_ack (b : Board) :
    b.soldered.timer?.map Timer.ack = b.timer?.map Timer.ack := by
  cases b with
  | vrc4 r =>
    simp only [soldered, timer?, Vrc4.soldered, Option.map_map]
    rfl
  | _ => rfl

/-- No timer of a wired board is one that the processor itself acknowledges. -/
theorem Wired.ack (h : b.Wired d) : ∀ t ∈ b.timer?, t.ack = .registerWrite := by
  intro t ht
  obtain ⟨reply, hstart, hreply⟩ := h
  have hsame : reply.registers.timer?.map Timer.ack = b.timer?.map Timer.ack := by
    rw [← soldered_ack, hreply, soldered_ack]
  rw [Option.mem_def.mp ht, Option.map_some] at hsame
  obtain ⟨first, hfirst, hack⟩ := Option.map_eq_some_iff.mp hsame
  rw [← hack]
  exact ((start_holds hstart).2 first hfirst).1

theorem mapTimer_eq_self {f : Timer → Timer} (h : ∀ t ∈ b.timer?, f t = t) : b.mapTimer f = b := by
  cases b with
  | vrc4 r =>
    have htimer : r.timer.map f = r.timer := by
      cases ht : r.timer with
      | none => rfl
      | some t => exact congrArg some (h t ht)
    simp only [mapTimer, htimer]
  | mmc3 r => simp only [mapTimer, h r.timer rfl]
  | fcg r => simp only [mapTimer, h r.timer rfl]
  | fme7 r => simp only [mapTimer, h r.timer rfl]
  | vrc3 r => simp only [mapTimer, h r.timer rfl]
  | _ => rfl

theorem Wired.acknowledge_eq (h : b.Wired d) : b.acknowledge = b := by
  refine mapTimer_eq_self ?_
  intro t ht
  simp only [Timer.acknowledge, h.ack t ht]

/-- The boards that have no timer; the wiring of mapper 22 leaves out that of the VRC4. -/
def Timerless : Board → Prop
  | mmc3 _ => False
  | fcg _ => False
  | vrc4 r => r.mapper = 22
  | fme7 _ => False
  | vrc3 _ => False
  | _ => True

theorem Wired.not_pending (h : b.Wired d) (htimer : b.Timerless) : b.irqPending = false := by
  cases b with
  | vrc4 r =>
    have hmapper : r.mapper = 22 := htimer
    obtain ⟨reply, hstart, hreply⟩ := h
    obtain ⟨own, hown, rfl⟩ := Option.map_eq_some_iff.mp hstart
    obtain ⟨_, mapper, _, start, hregisters, rfl⟩ := Vrc4.start?_eq_some hown
    have hsame : start.soldered = r.soldered := vrc4.inj hreply
    rw [hregisters] at hsame
    have hwiring : mapper = 22 := (congrArg Vrc4.mapper hsame).trans hmapper
    have hnone : r.soldered.timer = none := by
      rw [← hsame, hwiring]
      rfl
    have hbare : r.timer = none := Option.map_eq_none_iff.mp hnone
    simp only [irqPending, timer?, hbare, Option.any_none]
  | mmc3 r => exact htimer.elim
  | fcg r => exact htimer.elim
  | fme7 r => exact htimer.elim
  | vrc3 r => exact htimer.elim
  | _ => rfl

end Board

/-! ## Commands -/

namespace Machine

variable {m next : Machine}

/-- The line after a command other than a restore: up if the command raises it, or if it was up and
the command does not clear it. -/
theorem perform_pending (hm : m.cartridge.board.Wired d) {command : Command} {answer : Answer}
    (h : m.perform command = .ok (next, answer)) (hcommand : ∀ s, command ≠ .restore s) :
    next.cartridge.irqPending = true ↔ m.cartridge.board.Fires command ∨
      m.cartridge.irqPending = true ∧ ¬ m.cartridge.board.Acknowledges command := by
  have hstill : ∀ {line : Bool}, line = true ↔ False ∨ line = true ∧ ¬ False := by simp
  cases command with
  | restore s => exact absurd rfl (hcommand s)
  | loadSave data =>
    unfold perform at h
    simp only at h
    split at h
    · rename_i loaded hloaded
      cases h
      rw [Cartridge.loadSaveRam_eq_ok hloaded]
      exact hstill
    · cases h
      exact hstill
  | event e =>
    have heffect := step_effect h
    unfold Cartridge.irqPending
    cases e with
    | write addr value =>
      obtain ⟨reply, hreply, _, hboard⟩ := heffect
      rw [hboard, Board.write_pending hreply]
      exact (or_iff_right not_false).symm
    | readVideo addr =>
      rw [heffect.2, Board.afterRead_pending]
      exact hstill
    | clock =>
      rw [Board.clock_pending heffect.1]
      exact or_congr_right (and_iff_left not_false).symm
    | scanline =>
      rw [Board.scanline_pending heffect.1]
      exact or_congr_right (and_iff_left not_false).symm
    | acknowledge =>
      rw [heffect.1, hm.acknowledge_eq]
      exact hstill
    | read addr =>
      rw [heffect.1]
      exact hstill
    | writeVideo addr value =>
      rw [heffect.1]
      exact hstill

theorem perform_reachable (hm : m.cartridge.Reachable d) {command : Command} {answer : Answer}
    (h : m.perform command = .ok (next, answer)) (hcommand : ∀ s, command ≠ .restore s) :
    next.cartridge.Reachable d := by
  cases command with
  | event e => exact .step hm h
  | loadSave data =>
    unfold perform at h
    simp only at h
    split at h
    · rename_i loaded hloaded
      cases h
      exact .loadSave hm hloaded
    · cases h
      exact hm
  | restore s => exact absurd rfl (hcommand s)

/-! ## Runs -/

/-- The command at this place of a run has the property, with the board as it finds it. -/
def Meets (P : Board → Command → Prop) (m : Machine) (commands : List Command) (n : Nat) : Prop :=
  ∃ before seen command, m.run (commands.take n) = .ok (before, seen) ∧
    commands[n]? = some command ∧ P before.cartridge.board command

variable {P : Board → Command → Prop} {command : Command} {rest : List Command}

theorem not_meets_nil {n : Nat} : ¬ m.Meets P [] n := by
  rintro ⟨before, seen, command, _, hcommand, _⟩
  cases hcommand

theorem meets_zero : m.Meets P (command :: rest) 0 ↔ P m.cartridge.board command := by
  constructor
  · rintro ⟨before, seen, found, hrun, hfound, hmeets⟩
    cases hrun
    cases hfound
    exact hmeets
  · intro h
    exact ⟨m, [], command, rfl, rfl, h⟩

theorem meets_succ {answer : Answer} (h : m.perform command = .ok (next, answer)) {n : Nat} :
    m.Meets P (command :: rest) (n + 1) ↔ next.Meets P rest n := by
  constructor
  · rintro ⟨before, seen, found, hrun, hfound, hmeets⟩
    obtain ⟨first, _, later, hfirst, hlater, _⟩ := run_cons_iff.mp hrun
    rw [h] at hfirst
    cases hfirst
    exact ⟨before, later, found, hlater, hfound, hmeets⟩
  · rintro ⟨before, seen, found, hrun, hfound, hmeets⟩
    refine ⟨before, next.observe answer :: seen, found, ?_, hfound, hmeets⟩
    exact run_cons_iff.mpr ⟨next, answer, seen, h, hrun, rfl⟩

/-- Something has fired, and nothing after it has cleared the line. -/
def RaisedLast (m : Machine) (commands : List Command) : Prop :=
  ∃ n, m.Meets Board.Fires commands n ∧ ∀ k, n < k → ¬ m.Meets Board.Acknowledges commands k

theorem forall_not_meets_cons {answer : Answer} (h : m.perform command = .ok (next, answer)) :
    (∀ k, ¬ m.Meets P (command :: rest) k) ↔
      ¬ P m.cartridge.board command ∧ ∀ k, ¬ next.Meets P rest k := by
  constructor
  · intro hnone
    exact ⟨fun hP => hnone 0 (meets_zero.mpr hP), fun k hk => hnone (k + 1) ((meets_succ h).mpr hk)⟩
  · rintro ⟨hfirst, hrest⟩ k hk
    cases k with
    | zero => exact hfirst (meets_zero.mp hk)
    | succ k => exact hrest k ((meets_succ h).mp hk)

theorem raisedLast_cons {answer : Answer} (h : m.perform command = .ok (next, answer)) :
    m.RaisedLast (command :: rest) ↔
      (m.cartridge.board.Fires command ∧ ∀ k, ¬ next.Meets Board.Acknowledges rest k) ∨
        next.RaisedLast rest := by
  constructor
  · rintro ⟨n, hfires, hafter⟩
    cases n with
    | zero =>
      refine .inl ⟨meets_zero.mp hfires, ?_⟩
      intro k hk
      exact hafter (k + 1) (by omega) ((meets_succ h).mpr hk)
    | succ n =>
      refine .inr ⟨n, (meets_succ h).mp hfires, ?_⟩
      intro k hnk hk
      exact hafter (k + 1) (by omega) ((meets_succ h).mpr hk)
  · rintro (⟨hfires, hafter⟩ | ⟨n, hfires, hafter⟩)
    · refine ⟨0, meets_zero.mpr hfires, ?_⟩
      intro k hnk hk
      obtain ⟨j, rfl⟩ := Nat.exists_eq_add_of_lt hnk
      exact hafter _ ((meets_succ h).mp hk)
    · refine ⟨n + 1, (meets_succ h).mpr hfires, ?_⟩
      intro k hnk hk
      obtain ⟨j, rfl⟩ := Nat.exists_eq_add_of_lt hnk
      exact hafter (n + 1 + j) (by omega) ((meets_succ h).mp hk)

/-- The line at the end of a run is up if something has raised it since it was last cleared, or if
it was up to begin with and has never been cleared. -/
theorem run_pending (hm : m.cartridge.Reachable d) {commands : List Command}
    (hcommands : ∀ s, .restore s ∉ commands) {last : Machine} {seen : List Observation}
    (h : m.run commands = .ok (last, seen)) :
    last.cartridge.irqPending = true ↔ m.RaisedLast commands ∨
      m.cartridge.irqPending = true ∧ ∀ k, ¬ m.Meets Board.Acknowledges commands k := by
  induction commands generalizing m seen with
  | nil =>
    cases h
    constructor
    · intro hline
      exact .inr ⟨hline, fun _ => not_meets_nil⟩
    · rintro (⟨n, hfires, _⟩ | ⟨hline, _⟩)
      · exact absurd hfires not_meets_nil
      · exact hline
  | cons command rest ih =>
    obtain ⟨next, answer, later, hperform, hrest, _⟩ := run_cons_iff.mp h
    have hcommand : ∀ s, command ≠ .restore s := by
      rintro s rfl
      exact hcommands s (List.mem_cons_self ..)
    have hnext := perform_reachable hm hperform hcommand
    have hlater := ih hnext (fun s hs => hcommands s (List.mem_cons_of_mem _ hs)) hrest
    rw [hlater, perform_pending hm.wired hperform hcommand, raisedLast_cons hperform,
      forall_not_meets_cons hperform]
    grind

end Machine

/-- The line is down when a cartridge has been loaded. -/
theorem Cartridge.load_pending {prg chr : Memory} {c : Cartridge} {notes : List Note}
    (h : Cartridge.load d prg chr = .ok { value := .ok c, notes }) : c.irqPending = false := by
  obtain ⟨_, _, _, ⟨found, hfound⟩, _⟩ := Cartridge.load_eq_ok h
  obtain ⟨k, reply, plain, hstart, _, _, hboard⟩ := Registry.configureFrom_eq_some hfound
  rw [irqPending, hboard, Board.irqPending]
  cases ht : reply.registers.timer? with
  | none => rfl
  | some t => exact ((Board.start_holds hstart).2 t ht).2

/-- The interrupt line moves only as a board raises and clears it. In every reachable cartridge a
command other than a restore leaves it up if it raises it, or if it was up and the command does
not clear it; the processor's own acknowledgement changes nothing, and without a timer the line
stays down. So at the end of a run from power-on it is up if something has fired since it was
last cleared. -/
theorem interrupt_line_discipline (d : Descriptor) :
    (∀ c : Cartridge, c.Reachable d →
      (∀ video : VideoMemory, video.Fits d → ∀ command : Command, (∀ s, command ≠ .restore s) →
        ∃ next answer, Machine.perform { cartridge := c, video } command = .ok (next, answer) ∧
          (next.cartridge.irqPending = true ↔ c.board.Fires command ∨
            c.irqPending = true ∧ ¬ c.board.Acknowledges command)) ∧
      c.acknowledge = c ∧ (c.board.Timerless → c.irqPending = false)) ∧
    ∀ prg chr c notes, Cartridge.load d prg chr = .ok { value := .ok c, notes } →
      ∀ video : VideoMemory, video.Fits d → ∀ commands, (∀ s, .restore s ∉ commands) →
        ∃ last seen, Machine.run { cartridge := c, video } commands = .ok (last, seen) ∧
          (last.cartridge.irqPending = true ↔
            Machine.RaisedLast { cartridge := c, video } commands) := by
  refine ⟨?_, ?_⟩
  · intro c hc
    refine ⟨?_, ?_, hc.wired.not_pending⟩
    · intro video hvideo command hcommand
      obtain ⟨next, answer, hperform, _⟩ := Machine.exists_perform
        (m := { cartridge := c, video }) ⟨hc.wellFormed, hvideo⟩ command
      exact ⟨next, answer, hperform, Machine.perform_pending hc.wired hperform hcommand⟩
    · rw [Cartridge.acknowledge, hc.wired.acknowledge_eq]
  · intro prg chr c notes hload video hvideo commands hcommands
    have hc : c.Reachable d := .load hload
    obtain ⟨last, seen, hrun, _⟩ := Machine.exists_run
      (m := { cartridge := c, video }) ⟨hc.wellFormed, hvideo⟩ commands
    refine ⟨last, seen, hrun, ?_⟩
    rw [Machine.run_pending hc hcommands hrun, Cartridge.load_pending hload]
    simp

/-- The scanline counter is enabled with nothing in its latch, so that the first scanline fires. -/
theorem interrupt_line_discipline_tlrom :
    ∃ c notes, Cartridge.load .tlrom (.zeroed 0x8000) #[] = .ok { value := .ok c, notes } ∧
      c.irqPending = false ∧ c.acknowledge = c ∧
      ∃ last seen, Machine.run { cartridge := c, video := .cleared .tlrom }
          [.event (.write 0xE001 0), .event .scanline, .event .acknowledge] = .ok (last, seen) ∧
        last.cartridge.irqPending = true := by
  obtain ⟨c, notes, hload, hboard⟩ := Descriptor.tlrom_load
  have hline : c.irqPending = false := by
    rw [Cartridge.irqPending, hboard]
    rfl
  obtain ⟨hsteps, hruns⟩ := interrupt_line_discipline .tlrom
  obtain ⟨hperform, hsame, _⟩ := hsteps c (.load hload)
  obtain ⟨next, answer, hnext, _⟩ := hperform (.cleared .tlrom) ⟨rfl, rfl⟩
    (.event (.write 0xE001 0)) (by simp)
  obtain ⟨last, seen, hrun, hraised⟩ := hruns _ _ c notes hload (.cleared .tlrom) ⟨rfl, rfl⟩
    [.event (.write 0xE001 0), .event .scanline, .event .acknowledge] (by simp)
  refine ⟨c, notes, hload, hline, hsame, last, seen, hrun, hraised.mpr ⟨1, ?_, ?_⟩⟩
  · rw [Machine.meets_succ hnext, Machine.meets_zero]
    have hstep : Machine.step { cartridge := c, video := .cleared .tlrom } (.write 0xE001 0) =
        .ok (next, answer) := hnext
    obtain ⟨reply, hreply, _, henabled⟩ := Machine.step_effect hstep
    rw [hboard] at hreply
    cases hreply
    exact ⟨_, henabled, rfl, rfl⟩
  · -- Only the last command comes after, and it is not a write.
    rintro k hk ⟨before, seen, command, _, hcommand, hclears⟩
    match k, hk with
    | 2, _ =>
      cases hcommand
      exact hclears
    | k + 3, _ => cases hcommand

end GamePak
