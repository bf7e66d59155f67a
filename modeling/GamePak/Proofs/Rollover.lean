import GamePak.Proofs.Interrupts

/-!
When counters roll over. A counter is so many steps away from its next roll-over, and what the
roll-over leaves in it is as many steps away from the one after, time and again. So the steps on
which it rolls over are told by the two distances alone, whichever way it counts. A cycle steps the
counter if the prescaler lets it; in cycle mode every cycle does, and the roll-overs come on the
cycles that the distances name.
-/

namespace GamePak

namespace Timer

/-! ## Distances -/

namespace Counter

/-- Steps up to the next roll-over, that one included. -/
def distance (c : Counter) (count : UInt16) : Nat :=
  match c with
  | up8 => 256 - count.toNat % 256
  | up16 => 65536 - count.toNat
  | up8Low => 256 - count.toNat % 256
  | down16 => count.toNat + 1
  | down16Zero => count.toNat + 1

/-- Steps from one roll-over to the next. -/
def span (c : Counter) (latch : UInt16) : Nat :=
  match c with
  | up8 => 256 - latch.toNat % 256
  | up16 => 65536 - latch.toNat
  | up8Low => 256 - latch.toNat % 256
  | down16 => 65536
  | down16Zero => 65536

/-- The count right after a roll-over. -/
def reloaded (c : Counter) (latch count : UInt16) : UInt16 :=
  match c with
  | up8 => latch % 256
  | up16 => latch
  | up8Low => count / 256 * 256 + latch % 256
  | down16 => 0xFFFF
  | down16Zero => 0xFFFF

theorem span_pos (c : Counter) (latch : UInt16) : 0 < c.span latch := by
  have hlatch : latch.toNat < 65536 := latch.toNat_lt
  cases c <;> simp only [span] <;> omega

theorem distance_pos (c : Counter) (count : UInt16) : 0 < c.distance count := by
  have hcount : count.toNat < 65536 := count.toNat_lt
  cases c <;> simp only [distance] <;> omega

theorem toNat_reloaded_up8Low (latch count : UInt16) :
    (up8Low.reloaded latch count).toNat = count.toNat / 256 * 256 + latch.toNat % 256 := by
  have hcount : count.toNat < 65536 := count.toNat_lt
  simp only [reloaded, UInt16.toNat_add, UInt16.toNat_mul, UInt16.toNat_div, UInt16.toNat_mod,
    UInt16.reduceToNat]
  omega

theorem distance_reloaded (c : Counter) (latch count : UInt16) :
    c.distance (c.reloaded latch count) = c.span latch := by
  cases c with
  | up8 => simp only [distance, span, reloaded, UInt16.toNat_mod, UInt16.reduceToNat, Nat.mod_mod]
  | up16 => rfl
  | up8Low =>
    simp only [distance, span, toNat_reloaded_up8Low]
    omega
  | down16 => rfl
  | down16Zero => rfl

/-- Only the high byte of the count can outlast a roll-over. -/
theorem reloaded_congr (c : Counter) (latch : UInt16) {count count' : UInt16}
    (h : c = up8Low → count'.toNat / 256 = count.toNat / 256) :
    c.reloaded latch count' = c.reloaded latch count := by
  cases c with
  | up8Low =>
    apply UInt16.toNat_inj.mp
    rw [toNat_reloaded_up8Low, toNat_reloaded_up8Low, h rfl]
  | _ => rfl

theorem reloaded_reloaded (c : Counter) (latch count : UInt16) :
    c.reloaded latch (c.reloaded latch count) = c.reloaded latch count := by
  apply reloaded_congr
  rintro rfl
  rw [toNat_reloaded_up8Low]
  omega

/-- The count after a step that does not roll over. -/
def counted (c : Counter) (count : UInt16) : UInt16 :=
  match c with
  | up8 => count + 1
  | up16 => count + 1
  | up8Low => count + 1
  | down16 => count - 1
  | down16Zero => count - 1

theorem toNat_succ {count : UInt16} (h : count.toNat ≠ 65535) :
    (count + 1).toNat = count.toNat + 1 := by
  have hcount : count.toNat < 65536 := count.toNat_lt
  simp only [UInt16.toNat_add, UInt16.reduceToNat]
  omega

theorem toNat_pred {count : UInt16} (h : count.toNat ≠ 0) :
    (count - 1).toNat + 1 = count.toNat := by
  have hcount : count.toNat < 65536 := count.toNat_lt
  simp only [UInt16.toNat_sub, UInt16.reduceToNat]
  omega

/-- A step from anywhere but the end brings the end closer by one. -/
theorem distance_counted {c : Counter} {count : UInt16} (h : c.distance count ≠ 1) :
    c.distance (c.counted count) + 1 = c.distance count := by
  have hcount : count.toNat < 65536 := count.toNat_lt
  cases c with
  | up8 | up16 | up8Low =>
    simp only [distance] at h
    simp only [distance, counted, toNat_succ (show count.toNat ≠ 65535 by omega)]
    omega
  | down16 | down16Zero =>
    simp only [distance] at h
    simp only [distance, counted, toNat_pred (show count.toNat ≠ 0 by omega)]

theorem reloaded_counted {c : Counter} {count : UInt16} (h : c.distance count ≠ 1)
    (latch : UInt16) : c.reloaded latch (c.counted count) = c.reloaded latch count := by
  have hcount : count.toNat < 65536 := count.toNat_lt
  apply reloaded_congr
  rintro rfl
  simp only [distance] at h
  rw [counted, toNat_succ (by omega)]
  omega

theorem atEnd_iff {c : Counter} {count : UInt16} : c.AtEnd count ↔ c.distance count = 1 := by
  have hcount : count.toNat < 65536 := count.toNat_lt
  cases c <;>
    simp only [AtEnd, distance, ← UInt16.toNat_inj, UInt16.toNat_mod, UInt16.reduceToNat] <;> omega

/-- One step, by the distance: the counter rolls over exactly if it is one. -/
theorem step_eq (c : Counter) (latch count : UInt16) :
    c.step latch count = .ok (c.distance count = 1,
      if c.distance count = 1 then c.reloaded latch count else c.counted count) := by
  by_cases h : c.distance count = 1
  · have hend := atEnd_iff.mpr h
    rw [if_pos h, decide_eq_true h]
    cases c with
    | up8 | up16 | up8Low => exact if_pos hend
    | down16 | down16Zero =>
      have hzero : count = 0 := hend
      rw [hzero]
      rfl
  · have hend : ¬ c.AtEnd count := fun hend => h (atEnd_iff.mp hend)
    rw [if_neg h, decide_eq_false h]
    have hcount : count.toNat < 65536 := count.toNat_lt
    -- A counter that counts up is not at the highest number, one that counts down not at zero.
    have hnext : count.toNat ≠ 65535 →
        (Count.next count).map (false, ·) = .ok (false, count + 1) := by
      intro htop
      have hne : count ≠ 0xFFFF := fun heq => htop (congrArg UInt16.toNat heq)
      rw [Count.next, if_neg hne]
      rfl
    cases c with
    | up8 | up16 | up8Low =>
      simp only [distance] at h
      exact (if_neg hend).trans (hnext (by omega))
    | down16 =>
      simp only [distance] at h
      have hpred := toNat_pred (show count.toNat ≠ 0 by omega)
      have hlow : count - 1 ≠ 0xFFFF := by
        intro heq
        have hvalue : (count - 1).toNat = 65535 := congrArg UInt16.toNat heq
        omega
      simp only [step, counted, hlow, decide_false]
    | down16Zero =>
      have hne : count ≠ 0 := hend
      simp only [step, counted, hne, decide_false]

end Counter

/-- Of steps counted from one, this one comes at the first distance or whole spans after it. -/
def RollsOn (first span step : Nat) : Prop := first ≤ step ∧ (step - first) % span = 0

instance (first span step : Nat) : Decidable (RollsOn first span step) :=
  inferInstanceAs (Decidable (_ ∧ _))

theorem rollsOn_one {first span : Nat} (h : 0 < first) : RollsOn first span 1 ↔ first = 1 := by
  constructor
  · rintro ⟨hle, _⟩
    omega
  · rintro rfl
    exact ⟨Nat.le_refl 1, Nat.zero_mod span⟩

theorem rollsOn_succ {first span step : Nat} :
    RollsOn (first + 1) span (step + 1) ↔ RollsOn first span step := by
  unfold RollsOn
  rw [Nat.add_le_add_iff_right, Nat.add_sub_add_right]

/-- After a roll-over the next one is a whole span away. -/
theorem rollsOn_again {span step : Nat} (h : 0 < step) :
    RollsOn 1 span (step + 1) ↔ RollsOn span span step := by
  unfold RollsOn
  rw [Nat.add_sub_cancel]
  constructor
  · rintro ⟨_, hmod⟩
    have hle : span ≤ step := Nat.le_of_dvd h (Nat.dvd_of_mod_eq_zero hmod)
    exact ⟨hle, by rw [← Nat.mod_eq_sub_mod hle, hmod]⟩
  · rintro ⟨hle, hmod⟩
    exact ⟨by omega, by rw [Nat.mod_eq_sub_mod hle, hmod]⟩

variable {t next last : Timer}

/-! ## One step of a timer -/

/-- Steps up to the next roll-over. -/
def distance (t : Timer) : Nat := t.counter.distance t.count

/-- Steps from one roll-over to the next. -/
def span (t : Timer) : Nat := t.counter.span t.latch

/-- The count right after a roll-over. -/
def reloaded (t : Timer) : UInt16 := t.counter.reloaded t.latch t.count

/-- The timer after a step. -/
def ticked (t : Timer) : Timer :=
  { t with
    count := if t.distance = 1 then t.reloaded else t.counter.counted t.count
    pending := t.pending || (t.distance = 1 && t.output) }

theorem tick_eq (t : Timer) : t.tick = .ok (t.distance = 1, t.ticked) := by
  unfold tick
  rw [Counter.step_eq]
  rfl

theorem distance_ticked (h : t.distance ≠ 1) : t.ticked.distance + 1 = t.distance := by
  simp only [ticked, h, if_false]
  exact Counter.distance_counted h

theorem distance_ticked_of_one (h : t.distance = 1) : t.ticked.distance = t.span := by
  simp only [ticked, h, if_true]
  exact t.counter.distance_reloaded t.latch t.count

theorem reloaded_ticked (t : Timer) : t.ticked.reloaded = t.reloaded := by
  by_cases h : t.distance = 1
  · simp only [ticked, h, if_true]
    exact t.counter.reloaded_reloaded t.latch t.count
  · simp only [ticked, h, if_false]
    exact Counter.reloaded_counted h t.latch

/-- The steps of a timer after the first are those of the timer that the first one leaves. -/
theorem rollsOn_ticked {step : Nat} (h : 0 < step) :
    RollsOn t.ticked.distance t.span step ↔ RollsOn t.distance t.span (step + 1) := by
  by_cases hend : t.distance = 1
  · rw [distance_ticked_of_one hend, hend, rollsOn_again h]
  · rw [← distance_ticked hend, rollsOn_succ]

/-! ## Cycles -/

/-- The prescaler's part of a cycle: whether the counter is to be stepped, and the timer as far as
that. -/
def prescale (t : Timer) : Except Fault (Bool × Timer) :=
  if !t.enabled then .ok (false, t)
  else match t.mode with
  | .cycle => .ok (true, t)
  | .scanline => do
    let left ← Count.subSigned t.prescaler dotsPerCycle
    if 0 < left then return (false, { t with prescaler := left })
    else return (true, { t with prescaler := left + period })

/-- A cycle that shows what it does to the counter: nothing, or a step with or without a
roll-over. -/
def cycle (t : Timer) : Except Fault (Option Bool × Timer) := do
  let (steps, t) ← t.prescale
  if steps then
    let (rolled, t) ← t.tick
    return (some rolled, t)
  else return (none, t)

/-- Otherwise it is a cycle like any other. -/
theorem clock_eq_cycle (t : Timer) :
    t.clock = t.cycle.map fun shown => (shown.1 == some true, shown.2) := by
  have htick : ∀ t : Timer, t.tick =
      ((t.tick >>= fun (rolled, t) => return (some rolled, t)) : Except Fault _).map
        fun shown => (shown.1 == some true, shown.2) := by
    intro t
    rw [tick_eq]
    cases decide (t.distance = 1) <;> rfl
  unfold clock cycle prescale
  cases t.enabled with
  | false => rfl
  | true =>
    cases t.mode with
    | cycle => exact htick t
    | scanline =>
      cases Count.subSigned t.prescaler dotsPerCycle with
      | error fault => rfl
      | ok left =>
        by_cases hleft : 0 < left
        · simp only [bind, Except.bind, hleft, if_true]
          rfl
        · simp only [bind, Except.bind, hleft, if_false]
          exact htick _

/-- So many calls in a row: what they answered, first to last, and the timer after them. -/
def repeated {α : Type} (call : Timer → Except Fault (α × Timer)) (t : Timer) :
    Nat → Except Fault (List α × Timer)
  | 0 => return ([], t)
  | n + 1 => do
    let (answer, next) ← call t
    let (later, last) ← repeated call next n
    return (answer :: later, last)

/-- So many cycles in a row, with what they did to the counter. -/
def cycles : Timer → Nat → Except Fault (List (Option Bool) × Timer) := repeated cycle

/-- So many cycles in a row, with the roll-overs that they reported. -/
def clocks : Timer → Nat → Except Fault (List Bool × Timer) := repeated clock

theorem repeated_succ_iff {α : Type} {call : Timer → Except Fault (α × Timer)} {n : Nat}
    {answers : List α} :
    repeated call t (n + 1) = .ok (answers, last) ↔ ∃ answer next later,
      call t = .ok (answer, next) ∧ repeated call next n = .ok (later, last) ∧
        answers = answer :: later := by
  constructor
  · intro h
    obtain ⟨⟨answer, next⟩, hcall, h⟩ := Fault.bind_eq_ok_iff.mp h
    obtain ⟨⟨later, _⟩, hlater, heq⟩ := Fault.bind_eq_ok_iff.mp h
    cases heq
    exact ⟨answer, next, later, hcall, hlater, rfl⟩
  · rintro ⟨answer, next, later, hcall, hlater, rfl⟩
    exact Fault.bind_eq_ok_iff.mpr ⟨_, hcall, Fault.bind_eq_ok_iff.mpr ⟨_, hlater, rfl⟩⟩

theorem clocks_of_cycles {n : Nat} {log : List (Option Bool)} (h : t.cycles n = .ok (log, last)) :
    t.clocks n = .ok (log.map (· == some true), last) := by
  induction n generalizing t log with
  | zero =>
    cases h
    rfl
  | succ n ih =>
    obtain ⟨shown, next, later, hcycle, hlater, rfl⟩ := repeated_succ_iff.mp h
    refine repeated_succ_iff.mpr ⟨shown == some true, next, _, ?_, ih hlater, rfl⟩
    rw [clock_eq_cycle, hcycle]
    rfl

theorem length_cycles {n : Nat} {log : List (Option Bool)} (h : t.cycles n = .ok (log, last)) :
    log.length = n := by
  induction n generalizing t log with
  | zero =>
    cases h
    rfl
  | succ n ih =>
    obtain ⟨shown, next, later, _, hlater, rfl⟩ := repeated_succ_iff.mp h
    rw [List.length_cons, ih hlater]

theorem prescale_kept {steps : Bool} (h : t.prescale = .ok (steps, next)) :
    ∃ prescaler, next = { t with prescaler } := by
  unfold prescale at h
  split at h
  · cases h
    exact ⟨t.prescaler, rfl⟩
  · split at h
    · cases h
      exact ⟨t.prescaler, rfl⟩
    · obtain ⟨left, _, h⟩ := Fault.bind_eq_ok_iff.mp h
      split at h
      · cases h
        exact ⟨left, rfl⟩
      · cases h
        exact ⟨left + period, rfl⟩

/-- A cycle moves the prescaler, and beyond that it does nothing or makes a step. -/
theorem cycle_cases {shown : Option Bool} (h : t.cycle = .ok (shown, next)) :
    ∃ prescaler, (shown = none ∧ next = { t with prescaler }) ∨
      (shown = some (decide (t.distance = 1)) ∧ next = { t.ticked with prescaler }) := by
  obtain ⟨⟨steps, scaled⟩, hscaled, h⟩ := Fault.bind_eq_ok_iff.mp h
  obtain ⟨prescaler, rfl⟩ := prescale_kept hscaled
  cases steps with
  | false =>
    cases h
    exact ⟨prescaler, .inl ⟨rfl, rfl⟩⟩
  | true =>
    obtain ⟨⟨rolled, ticked⟩, hticked, heq⟩ := Fault.bind_eq_ok_iff.mp h
    cases heq
    rw [tick_eq] at hticked
    cases hticked
    exact ⟨prescaler, .inr ⟨rfl, rfl⟩⟩

/-- Whether a step rolls over is told by its number, whatever cycles lie between the steps. -/
theorem cycles_rolled {n : Nat} {log : List (Option Bool)} (h : t.cycles n = .ok (log, last))
    {i : Nat} {rolled : Bool} (hi : log[i]? = some (some rolled)) :
    rolled = true ↔ RollsOn t.distance t.span ((log.take i).countP Option.isSome + 1) := by
  induction n generalizing t log i with
  | zero =>
    cases h
    cases hi
  | succ n ih =>
    obtain ⟨shown, next, later, hcycle, hlater, rfl⟩ := repeated_succ_iff.mp h
    obtain ⟨prescaler, ⟨rfl, rfl⟩ | ⟨rfl, rfl⟩⟩ := cycle_cases hcycle
    · cases i with
      | zero => cases hi
      | succ i =>
        have hrest := ih hlater hi
        rw [List.take_succ_cons, List.countP_cons_of_neg (by decide)]
        exact hrest
    · cases i with
      | zero =>
        cases hi
        have hpos : 0 < t.distance := t.counter.distance_pos t.count
        rw [decide_eq_true_iff]
        exact (rollsOn_one hpos).symm
      | succ i =>
        have hrest := ih hlater hi
        rw [List.take_succ_cons, List.countP_cons_of_pos rfl, ← rollsOn_ticked (Nat.succ_pos _)]
        exact hrest

theorem cycles_pending {n : Nat} {log : List (Option Bool)} (h : t.cycles n = .ok (log, last)) :
    last.pending = (t.pending || (t.output && log.contains (some true))) := by
  induction n generalizing t log with
  | zero =>
    cases h
    simp
  | succ n ih =>
    obtain ⟨shown, next, later, hcycle, hlater, rfl⟩ := repeated_succ_iff.mp h
    rw [ih hlater, List.contains_cons]
    obtain ⟨prescaler, ⟨rfl, rfl⟩ | ⟨rfl, rfl⟩⟩ := cycle_cases hcycle
    · rfl
    · have hsame : (some true == some (decide (t.distance = 1))) = decide (t.distance = 1) := by
        cases decide (t.distance = 1) <;> rfl
      rw [hsame]
      simp only [ticked]
      cases t.pending <;> cases t.output <;> cases decide (t.distance = 1) <;> simp

theorem cycles_reloaded {n : Nat} {log : List (Option Bool)} (h : t.cycles n = .ok (log, last))
    (hrolled : log.getLast? = some (some true)) : last.count = t.reloaded := by
  induction n generalizing t log with
  | zero =>
    cases h
    cases hrolled
  | succ n ih =>
    obtain ⟨shown, next, later, hcycle, hlater, rfl⟩ := repeated_succ_iff.mp h
    have hnext : next.reloaded = t.reloaded := by
      obtain ⟨prescaler, ⟨_, rfl⟩ | ⟨_, rfl⟩⟩ := cycle_cases hcycle
      · rfl
      · exact t.reloaded_ticked
    cases later with
    | nil =>
      have hn : n = 0 := (length_cycles hlater).symm
      subst hn
      cases hlater
      have hshown : shown = some true := Option.some.inj hrolled
      obtain ⟨prescaler, ⟨rfl, _⟩ | ⟨rfl, rfl⟩⟩ := cycle_cases hcycle
      · cases hshown
      · have hend : t.distance = 1 := of_decide_eq_true (Option.some.inj hshown)
        exact if_pos hend
    | cons second later =>
      rw [List.getLast?_cons_cons] at hrolled
      rw [ih hlater hrolled, hnext]

/-! ## Cycle mode -/

theorem cycle_of_mode (hon : t.enabled = true) (hmode : t.mode = .cycle) :
    t.cycle = .ok (some (decide (t.distance = 1)), t.ticked) := by
  have hscaled : t.prescale = .ok (true, t) := by
    unfold prescale
    simp only [hon, hmode]
    rfl
  unfold cycle
  rw [hscaled]
  simp only [bind, Except.bind, if_true, tick_eq]
  rfl

theorem exists_cycles_of_mode (hon : t.enabled = true) (hmode : t.mode = .cycle) (n : Nat) :
    ∃ (rolled : List Bool) (last : Timer), t.cycles n = .ok (rolled.map some, last) := by
  induction n generalizing t with
  | zero => exact ⟨[], t, rfl⟩
  | succ n ih =>
    have hcycle := cycle_of_mode hon hmode
    obtain ⟨rolled, last, hrest⟩ := ih (t := t.ticked) hon hmode
    exact ⟨_ :: rolled, last, repeated_succ_iff.mpr ⟨_, _, _, hcycle, hrest, rfl⟩⟩

/-- Where every cycle is a step, the number of the cycle tells whether it rolls over. -/
theorem rolled_iff_of_steps {n : Nat} {rolled : List Bool}
    (h : t.cycles n = .ok (rolled.map some, last)) {k : Nat} (hk : 1 ≤ k) (hkn : k ≤ n) :
    rolled[k - 1]? = some true ↔ RollsOn t.distance t.span k := by
  have hlength : rolled.length = n := by
    rw [← length_cycles h, List.length_map]
  obtain ⟨answer, hanswer⟩ : ∃ answer, rolled[k - 1]? = some answer :=
    ⟨rolled[k - 1], List.getElem?_eq_getElem (by omega)⟩
  have hstep : (rolled.map some)[k - 1]? = some (some answer) := by
    rw [List.getElem?_map, hanswer]
    rfl
  have hcount : ((rolled.map some).take (k - 1)).countP Option.isSome = k - 1 := by
    have hall : ∀ step ∈ (rolled.map some).take (k - 1), step.isSome := by
      intro step hmem
      obtain ⟨_, _, rfl⟩ := List.mem_map.mp (List.mem_of_mem_take hmem)
      rfl
    rw [List.countP_eq_length.mpr hall, List.length_take, List.length_map, hlength]
    omega
  have hrolled := cycles_rolled h hstep
  rw [hcount, Nat.sub_add_cancel hk] at hrolled
  rw [hanswer, Option.some.injEq, hrolled]

/-! ## The two counters that count down -/

/-- The timer with the other way of counting down. -/
def withCounter (c : Counter) (t : Timer) : Timer := { t with counter := c }

theorem clock_down (t : Timer) :
    (t.withCounter .down16).clock = (t.withCounter .down16Zero).clock.map
      fun shown => (shown.1, shown.2.withCounter .down16) := by
  have htick : ∀ t : Timer, (t.withCounter .down16).tick =
      (t.withCounter .down16Zero).tick.map fun shown => (shown.1, shown.2.withCounter .down16) := by
    intro t
    rw [tick_eq, tick_eq]
    rfl
  have hon : ∀ c, (t.withCounter c).enabled = t.enabled := fun _ => rfl
  have hmode : ∀ c, (t.withCounter c).mode = t.mode := fun _ => rfl
  have hleft : ∀ c, (t.withCounter c).prescaler = t.prescaler := fun _ => rfl
  unfold clock
  simp only [hon, hmode, hleft]
  split
  · rfl
  · split
    · exact htick t
    · cases Count.subSigned t.prescaler dotsPerCycle with
      | error fault => rfl
      | ok left =>
        simp only [bind, Except.bind]
        split
        · rfl
        · exact htick { t with prescaler := left + period }

/-- Cycles tell the two apart by nothing that they answer or leave. -/
theorem clocks_down (t : Timer) (n : Nat) :
    (t.withCounter .down16).clocks n =
      ((t.withCounter .down16Zero).clocks n).map fun shown =>
        (shown.1, shown.2.withCounter .down16) := by
  induction n generalizing t with
  | zero => rfl
  | succ n ih =>
    unfold clocks repeated
    rw [clock_down]
    cases hclock : (t.withCounter .down16Zero).clock with
    | error fault => rfl
    | ok shown =>
      obtain ⟨rolled, next⟩ := shown
      have hcounter : next.withCounter .down16Zero = next :=
        congrArg (fun c => next.withCounter c)
          (congrArg counter (clock_soldered hclock)).symm
      have hrest := ih next
      rw [hcounter] at hrest
      unfold clocks at hrest
      simp only [bind, Except.bind, Except.map, hrest]
      cases repeated clock next n <;> rfl

/-- A timer that counts every cycle rolls over at its first distance and then at every span after
it, whatever it counted before. A roll-over reloads the count, and the line is up once it was up or
something has rolled over with the output on. Of the two counters that count down, one does what
the other does. -/
theorem rollovers_in_cycle_mode (t : Timer) (hon : t.enabled = true) (hmode : t.mode = .cycle)
    (n : Nat) :
    (∃ rolled last, t.clocks n = .ok (rolled, last) ∧ rolled.length = n ∧
      (∀ k, 1 ≤ k → k ≤ n → (rolled[k - 1]? = some true ↔ RollsOn t.distance t.span k)) ∧
      (rolled.getLast? = some true → last.count = t.reloaded) ∧
      last.pending = (t.pending || (t.output && rolled.contains true))) ∧
    (t.withCounter .down16).clocks n =
      ((t.withCounter .down16Zero).clocks n).map fun shown =>
        (shown.1, shown.2.withCounter .down16) := by
  refine ⟨?_, t.clocks_down n⟩
  obtain ⟨rolled, last, hcycles⟩ := exists_cycles_of_mode hon hmode n
  have hlength : rolled.length = n := by
    rw [← length_cycles hcycles, List.length_map]
  have hanswers : (rolled.map some).map (· == some true) = rolled := by
    rw [List.map_map]
    exact List.map_id'' (fun b => by cases b <;> rfl) rolled
  have hclocks : t.clocks n = .ok (rolled, last) := by
    rw [clocks_of_cycles hcycles, hanswers]
  refine ⟨rolled, last, hclocks, hlength, fun k => rolled_iff_of_steps hcycles, ?_, ?_⟩
  · intro hlast
    refine cycles_reloaded hcycles ?_
    rw [List.getLast?_map, hlast]
    rfl
  · have hsome : (rolled.map some).contains (some true) = rolled.contains true := by
      simp
    rw [cycles_pending hcycles, hsome]

/-- A low byte two cycles short of its end, under a high byte that the latch does not have. -/
def offLatch : Timer :=
  { latch := 0x12FE, count := 0x34FD, prescaler := -7, enabled := true, counter := .up8Low,
    ack := .registerWrite }

/-- It rolls over on the third cycle and then on every second one; the high byte stays. -/
theorem rollovers_in_cycle_mode_offLatch :
    offLatch.enabled = true ∧ offLatch.mode = .cycle ∧
    ∃ rolled last, offLatch.clocks 7 = .ok (rolled, last) ∧ rolled[2]? = some true ∧
      rolled[3]? ≠ some true ∧ rolled[6]? = some true ∧ last.count = 0x34FE ∧
      last.pending = true := by
  obtain ⟨⟨rolled, last, hclocks, hlength, hrolled, hcount, hpending⟩, _⟩ :=
    rollovers_in_cycle_mode offLatch rfl rfl 7
  have hthird : rolled[2]? = some true := (hrolled 3 (by decide) (by decide)).mpr (by decide)
  have hfourth : rolled[3]? ≠ some true :=
    fun h => absurd ((hrolled 4 (by decide) (by decide)).mp h) (by decide)
  have hseventh : rolled[6]? = some true := (hrolled 7 (by decide) (by decide)).mpr (by decide)
  have hlast : rolled.getLast? = some true := by
    rw [List.getLast?_eq_getElem?, hlength]
    exact hseventh
  refine ⟨rfl, rfl, rolled, last, hclocks, hthird, hfourth, hseventh, hcount hlast, ?_⟩
  rw [hpending, List.contains_iff_mem.mpr (List.mem_of_getElem? hthird)]
  rfl

end Timer

end GamePak
