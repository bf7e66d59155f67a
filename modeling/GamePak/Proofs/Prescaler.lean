import GamePak.Proofs.Rollover

/-!
The prescaler of scanline mode. Three dots go by in a cycle and a step takes 341 of them, which is
no multiple of three; what a step leaves over is kept for the next one. So the dots that have gone
by are always those of the steps made and those that the prescaler has been moved, and no number of
cycles lets the steps drift from the dots. A counter that rolls over every so many steps does so on
the cycle that completes the last dot of its steps.
-/

namespace GamePak.Timer

variable {t next last : Timer} {n : Nat} {log : List (Option Bool)}

/-! ## Dots -/

/-- In scanline mode a cycle either takes three dots from the prescaler or, where no more are left,
starts the next 341 of them and makes a step. -/
theorem cycle_of_scanline (hon : t.enabled = true) (hmode : t.mode = .scanline) (ht : t.Valid) :
    t.cycle =
      if t.prescaler ≤ 3 then
        .ok (some (decide (t.distance = 1)), { t.ticked with prescaler := t.prescaler + 338 })
      else .ok (none, { t with prescaler := t.prescaler - 3 }) := by
  obtain ⟨hlow, _⟩ := ht
  have hleft : Count.subSigned t.prescaler dotsPerCycle = .ok (t.prescaler - 3) := by
    unfold Count.subSigned dotsPerCycle
    rw [if_neg (by omega)]
  have hscaled : t.prescale =
      if 0 < t.prescaler - 3 then .ok (false, { t with prescaler := t.prescaler - 3 })
      else .ok (true, { t with prescaler := t.prescaler - 3 + period }) := by
    unfold prescale
    simp only [hon, hmode, hleft]
    rfl
  unfold cycle
  rw [hscaled]
  by_cases hlast : t.prescaler ≤ 3
  · have hsum : t.prescaler - 3 + period = t.prescaler + 338 := by
      unfold period
      omega
    rw [if_pos hlast, if_neg (by omega), hsum]
    simp only [bind, Except.bind, if_true, tick_eq]
    rfl
  · rw [if_neg hlast, if_pos (by omega)]
    rfl

theorem exists_cycle_of_scanline (hon : t.enabled = true) (hmode : t.mode = .scanline)
    (ht : t.Valid) :
    ∃ shown next, t.cycle = .ok (shown, next) ∧ next.enabled = true ∧ next.mode = .scanline ∧
      next.Valid ∧ 0 < next.prescaler ∧
      next.prescaler + 3 = t.prescaler + 341 * (if shown.isSome then 1 else 0) := by
  have hcycle := cycle_of_scanline hon hmode ht
  obtain ⟨hlow, hhigh⟩ := ht
  unfold period at hhigh
  by_cases hlast : t.prescaler ≤ 3
  · rw [if_pos hlast] at hcycle
    refine ⟨_, _, hcycle, hon, hmode, ?_, ?_, ?_⟩
    · unfold Valid period
      simp only
      omega
    · simp only
      omega
    · simp only [Option.isSome_some, if_true]
      omega
  · rw [if_neg hlast] at hcycle
    refine ⟨_, _, hcycle, hon, hmode, ?_, ?_, ?_⟩
    · unfold Valid period
      simp only
      omega
    · simp only
      omega
    · simp

/-- No dot is lost in any number of cycles: the prescaler has moved by three dots a cycle, less 341
for each step. -/
theorem exists_cycles_of_scanline (hon : t.enabled = true) (hmode : t.mode = .scanline)
    (ht : t.Valid) (n : Nat) :
    ∃ log last, t.cycles n = .ok (log, last) ∧ last.Valid ∧
      (0 < t.prescaler ∨ 0 < n → 0 < last.prescaler) ∧
      last.prescaler + 3 * n = t.prescaler + 341 * log.countP Option.isSome := by
  induction n generalizing t with
  | zero =>
    refine ⟨[], t, rfl, ht, ?_, ?_⟩
    · intro h
      omega
    · simp
  | succ n ih =>
    obtain ⟨shown, next, hcycle, hon, hmode, hvalid, hpos, hdots⟩ :=
      exists_cycle_of_scanline hon hmode ht
    obtain ⟨later, last, hlater, hlast, hleft, hsum⟩ := ih hon hmode hvalid
    refine ⟨shown :: later, last, repeated_succ_iff.mpr ⟨_, _, _, hcycle, hlater, rfl⟩, hlast,
      fun _ => hleft (.inl hpos), ?_⟩
    rw [List.countP_cons]
    by_cases hstep : shown.isSome = true
    · rw [if_pos hstep] at hdots ⊢
      omega
    · rw [if_neg hstep] at hdots ⊢
      omega

/-! ## From a full prescaler on -/

theorem cycles_take (h : t.cycles n = .ok (log, last)) {m : Nat} (hm : m ≤ n) :
    ∃ mid, t.cycles m = .ok (log.take m, mid) := by
  induction n generalizing t log m with
  | zero =>
    obtain rfl : m = 0 := by omega
    exact ⟨t, rfl⟩
  | succ n ih =>
    cases m with
    | zero => exact ⟨t, rfl⟩
    | succ m =>
      obtain ⟨shown, next, later, hcycle, hlater, rfl⟩ := repeated_succ_iff.mp h
      obtain ⟨mid, hmid⟩ := ih hlater (Nat.le_of_succ_le_succ hm)
      exact ⟨mid, repeated_succ_iff.mpr ⟨shown, next, _, hcycle, hmid, rfl⟩⟩

theorem steps_of_full (hon : t.enabled = true) (hmode : t.mode = .scanline)
    (hfull : t.prescaler = 341) (h : t.cycles n = .ok (log, last)) {m : Nat} (hm : m ≤ n) :
    341 * (log.take m).countP Option.isSome ≤ 3 * m ∧
      3 * m < 341 * ((log.take m).countP Option.isSome + 1) := by
  have ht : t.Valid := by
    unfold Valid period
    omega
  obtain ⟨mid, hmid⟩ := cycles_take h hm
  obtain ⟨shown, after, hcycles, hvalid, hpos, hdots⟩ := exists_cycles_of_scanline hon hmode ht m
  rw [hmid] at hcycles
  cases hcycles
  have hlow := hpos (.inl (by omega))
  have hhigh : mid.prescaler ≤ 341 := hvalid.2
  omega

theorem steps_iff_of_full (hon : t.enabled = true) (hmode : t.mode = .scanline)
    (hfull : t.prescaler = 341) (h : t.cycles n = .ok (log, last)) {i : Nat} {shown : Option Bool}
    (hshown : log[i]? = some shown) :
    shown.isSome = true ↔ 341 * ((log.take i).countP Option.isSome + 1) ≤ 3 * (i + 1) := by
  have hi : i < n := by
    rw [← length_cycles h]
    exact (List.getElem?_eq_some_iff.mp hshown).1
  obtain ⟨hbefore, _⟩ := steps_of_full hon hmode hfull h (Nat.le_of_lt hi)
  obtain ⟨hmade, hafter⟩ := steps_of_full hon hmode hfull h hi
  have hcount : (log.take (i + 1)).countP Option.isSome =
      (log.take i).countP Option.isSome + if shown.isSome then 1 else 0 := by
    rw [List.take_add_one, hshown, List.countP_append]
    exact congrArg _ List.countP_singleton
  rw [Nat.succ_eq_add_one, hcount] at hmade hafter
  by_cases hstep : shown.isSome = true
  · rw [if_pos hstep] at hmade
    exact iff_of_true hstep hmade
  · rw [if_neg hstep] at hafter
    exact iff_of_false hstep (by omega)

theorem exists_step_of_full (hon : t.enabled = true) (hmode : t.mode = .scanline)
    (hfull : t.prescaler = 341) {k : Nat} (hk : 1 ≤ k) :
    ∃ log rolled last, t.cycles ((341 * k + 2) / 3) = .ok (log ++ [some rolled], last) ∧
      log.countP Option.isSome + 1 = k := by
  have ht : t.Valid := by
    unfold Valid period
    omega
  obtain ⟨before, hcall⟩ : ∃ before, (341 * k + 2) / 3 = before + 1 :=
    ⟨(341 * k + 2) / 3 - 1, by omega⟩
  rw [hcall]
  obtain ⟨log, last, hcycles, _⟩ := exists_cycles_of_scanline hon hmode ht (before + 1)
  have hlength := length_cycles hcycles
  obtain ⟨shown, hshown⟩ : ∃ shown, log[before]? = some shown :=
    ⟨log[before], List.getElem?_eq_getElem (by omega)⟩
  obtain ⟨hmade, hnext⟩ := steps_of_full hon hmode hfull hcycles (Nat.le_succ before)
  have hcount : (log.take before).countP Option.isSome + 1 = k := by omega
  have hstep := (steps_iff_of_full hon hmode hfull hcycles hshown).mpr (by omega)
  obtain ⟨rolled, rfl⟩ := Option.isSome_iff_exists.mp hstep
  have hlog : log = log.take before ++ [some rolled] := by
    have htake := List.take_add_one (l := log) (i := before)
    rw [List.take_of_length_le (by omega), hshown] at htake
    exact htake
  refine ⟨log.take before, rolled, last, ?_, hcount⟩
  rw [← hlog]
  exact hcycles

theorem rollsOn_self_iff {span step : Nat} :
    RollsOn span span step ↔ ∃ k, 1 ≤ k ∧ step = k * span := by
  constructor
  · rintro ⟨hle, hmod⟩
    obtain ⟨k, hk⟩ := Nat.dvd_of_mod_eq_zero hmod
    refine ⟨k + 1, by omega, ?_⟩
    rw [Nat.succ_mul, Nat.mul_comm k]
    omega
  · rintro ⟨k, hk, rfl⟩
    obtain ⟨j, rfl⟩ := Nat.exists_eq_add_of_le' hk
    rw [Nat.succ_mul]
    exact ⟨by omega, by rw [Nat.add_sub_cancel, Nat.mul_mod_left]⟩

theorem rolled_iff_of_full (hon : t.enabled = true) (hmode : t.mode = .scanline)
    (hfull : t.prescaler = 341) (hspan : t.distance = t.span)
    (h : t.cycles n = .ok (log, last)) {i : Nat} (hi : i < n) :
    log[i]? = some (some true) ↔ ∃ k, 1 ≤ k ∧ i + 1 = (341 * (k * t.span) + 2) / 3 := by
  have hpos : 0 < t.span := t.counter.span_pos t.latch
  obtain ⟨hbefore, hafter⟩ := steps_of_full hon hmode hfull h (Nat.le_of_lt hi)
  constructor
  · intro hshown
    have hstep := (steps_iff_of_full hon hmode hfull h hshown).mp rfl
    have hrolled := (cycles_rolled h hshown).mp rfl
    rw [hspan] at hrolled
    obtain ⟨k, hk, hcount⟩ := rollsOn_self_iff.mp hrolled
    refine ⟨k, hk, ?_⟩
    rw [← hcount]
    omega
  · rintro ⟨k, hk, hcall⟩
    have hlength : i < log.length := by
      rw [length_cycles h]
      exact hi
    obtain ⟨shown, hshown⟩ : ∃ shown, log[i]? = some shown :=
      ⟨log[i], List.getElem?_eq_getElem hlength⟩
    have hcount : (log.take i).countP Option.isSome + 1 = k * t.span := by
      have hsteps : 0 < k * t.span := Nat.mul_pos hk hpos
      omega
    have hstep := (steps_iff_of_full hon hmode hfull h hshown).mpr (by omega)
    obtain ⟨rolled, rfl⟩ := Option.isSome_iff_exists.mp hstep
    have hrolled : rolled = true := by
      rw [cycles_rolled h hshown, hcount, hspan]
      exact rollsOn_self_iff.mpr ⟨k, hk, rfl⟩
    rw [hshown, hrolled]

/-! ## After a control write -/

theorem writeControl_enable (t : Timer) {c : Control} (hc : c.enable = true) :
    t.writeControl c = { t with
      enabledAfterAck := c.enableAfterAck, enabled := true, pending := false, count := t.latch,
      prescaler := 341 } := by
  unfold writeControl
  rw [hc, if_pos rfl]
  rfl

theorem writeControl_distance {c : Control} (hc : c.enable = true) (hcounter : t.counter = .up8) :
    (t.writeControl c).distance = (t.writeControl c).span ∧
      (t.writeControl c).span = 256 - t.latch.toNat % 256 := by
  rw [t.writeControl_enable hc, span, distance]
  simp only [hcounter]
  exact ⟨rfl, rfl⟩

/-- The steps of scanline mode keep time. In any number of cycles a timer makes the steps whose dots
have gone by, and keeps the rest of the dots. After a control write that turns it on, step `k` is
made on the cycle that completes 341 times `k` dots, and an eight-bit counter rolls over on the
cycles that complete a multiple of its span of such steps. -/
theorem scanline_steps_keep_time :
    (∀ t : Timer, t.enabled = true → t.mode = .scanline → t.Valid → ∀ n, 1 ≤ n →
      ∃ log last, t.cycles n = .ok (log, last) ∧
        t.clocks n = .ok (log.map (· == some true), last) ∧
        (log.countP Option.isSome : Int) = (3 * n + 341 - t.prescaler) / 341 ∧
        last.prescaler = t.prescaler - 3 * n + 341 * log.countP Option.isSome ∧ last.Valid) ∧
    ∀ (t : Timer) (c : Control), t.mode = .scanline → c.enable = true →
      (∀ k, 1 ≤ k → ∃ log rolled last,
        (t.writeControl c).cycles ((341 * k + 2) / 3) = .ok (log ++ [some rolled], last) ∧
        log.countP Option.isSome + 1 = k) ∧
      (t.counter = .up8 → t.latch.toNat ≤ 255 → ∀ n, ∃ rolled last,
        (t.writeControl c).clocks n = .ok (rolled, last) ∧ rolled.length = n ∧
        ∀ call, 1 ≤ call → call ≤ n → (rolled[call - 1]? = some true ↔
          ∃ k, 1 ≤ k ∧ call = (341 * (k * (256 - t.latch.toNat)) + 2) / 3)) := by
  refine ⟨?_, ?_⟩
  · intro t hon hmode ht n hn
    obtain ⟨log, last, hcycles, hlast, hpos, hdots⟩ := exists_cycles_of_scanline hon hmode ht n
    have hlow := hpos (.inr hn)
    have hhigh : last.prescaler ≤ 341 := hlast.2
    refine ⟨log, last, hcycles, clocks_of_cycles hcycles, ?_, ?_, hlast⟩
    · omega
    · omega
  · intro t c hmode hc
    have hwritten := t.writeControl_enable hc
    have hon : (t.writeControl c).enabled = true := by rw [hwritten]
    have hfull : (t.writeControl c).prescaler = 341 := by rw [hwritten]
    have hmode : (t.writeControl c).mode = .scanline := by
      rw [hwritten]
      exact hmode
    refine ⟨fun k hk => exists_step_of_full hon hmode hfull hk, ?_⟩
    intro hcounter hlatch n
    obtain ⟨hdistance, hspan⟩ := writeControl_distance hc hcounter
    rw [Nat.mod_eq_of_lt (by omega)] at hspan
    obtain ⟨log, last, hcycles, _⟩ :=
      exists_cycles_of_scanline hon hmode ⟨by omega, by unfold period; omega⟩ n
    refine ⟨log.map (· == some true), last, clocks_of_cycles hcycles, ?_, ?_⟩
    · rw [List.length_map, length_cycles hcycles]
    · intro call hcall hn
      have hrolled := rolled_iff_of_full hon hmode hfull hdistance hcycles
        (show call - 1 < n by omega)
      rw [hspan, Nat.sub_add_cancel hcall] at hrolled
      rw [← hrolled, List.getElem?_map]
      cases log[call - 1]? <;> simp

def onLine : Timer :=
  { latch := 0xFE, mode := .scanline, enabled := true, counter := .up8, ack := .registerWrite }

/-- Its next cycle is a step. Turned on anew, it takes two lines to roll over, 682 dots, and the
cycle that completes the second is the 228th. -/
theorem scanline_steps_keep_time_onLine :
    (∃ log last, onLine.cycles 1 = .ok (log, last) ∧ log.countP Option.isSome = 1 ∧
      last.prescaler = 338) ∧
    ∃ rolled last, (onLine.writeControl (.ofByte 2)).clocks 300 = .ok (rolled, last) ∧
      rolled[226]? ≠ some true ∧ rolled[227]? = some true := by
  obtain ⟨hsteps, hcontrol⟩ := scanline_steps_keep_time
  constructor
  · obtain ⟨log, last, hcycles, _, hcount, hprescaler, _⟩ :=
      hsteps onLine rfl rfl (by decide) 1 (by decide)
    have hone : log.countP Option.isSome = 1 := Int.ofNat_inj.mp hcount
    rw [hone] at hprescaler
    exact ⟨log, last, hcycles, hone, hprescaler⟩
  · obtain ⟨rolled, last, hclocks, _, hrolled⟩ :=
      (hcontrol onLine (.ofByte 2) rfl rfl).2 rfl (by decide) 300
    refine ⟨rolled, last, hclocks, ?_, ?_⟩
    · intro h
      obtain ⟨k, hk, hcall⟩ := (hrolled 227 (by decide) (by decide)).mp h
      have hlatch : onLine.latch.toNat = 254 := rfl
      rw [hlatch] at hcall
      omega
    · exact (hrolled 228 (by decide) (by decide)).mpr ⟨1, by decide, rfl⟩

end GamePak.Timer
