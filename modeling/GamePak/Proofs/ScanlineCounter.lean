import GamePak.Proofs.Histories
import GamePak.Proofs.Rollover

/-!
The scanline counter of the MMC3. Once its latch has been written and a reload asked for, it goes
through the numbers from the latch down to zero and round again, one a scanline, whatever else is
done to the cartridge. So it stands at zero on the multiples of the latch plus one, and these are
the scanlines that raise the line while the counter is enabled.
-/

namespace GamePak

variable {d : Descriptor}

namespace Mmc3

/-! ## The registers of the counter -/

def LatchAt (addr : Nat) : Prop := 0xC000 ≤ addr ∧ addr < 0xE000 ∧ addr % 2 = 0

def ReloadAt (addr : Nat) : Prop := 0xC000 ≤ addr ∧ addr < 0xE000 ∧ addr % 2 = 1

def EnableAt (addr : Nat) : Prop := 0xE000 ≤ addr ∧ addr % 2 = 1

/-- Writes here set the pace of the counter. -/
def PaceAt (addr : UInt16) : Prop := 0xC000 ≤ addr.toNat ∧ addr.toNat < 0xE000

/-- Writes here have to do with the counter or with the line. -/
def TimerAt (addr : UInt16) : Prop := 0xC000 ≤ addr.toNat

instance : DecidablePred PaceAt := fun _ => inferInstanceAs (Decidable (_ ∧ _))

instance : DecidablePred TimerAt := fun _ => inferInstanceAs (Decidable (_ ≤ _))

variable {r r' : Mmc3} {addr : Nat}

theorem write_latch (r : Mmc3) (value : UInt8) (h : LatchAt addr) :
    (r.write addr value).registers = { r with timer.latch := value.toUInt16 } := by
  obtain ⟨hlow, hhigh, heven⟩ := h
  unfold write writeEven
  rw [if_neg (by omega), if_pos heven, if_neg (by omega), if_neg (by omega), if_pos hhigh]

theorem write_reload (r : Mmc3) (value : UInt8) (h : ReloadAt addr) :
    (r.write addr value).registers = { r with timer.count := 0, reload := true } := by
  obtain ⟨hlow, hhigh, hodd⟩ := h
  unfold write writeOdd
  rw [if_neg (by omega), if_neg (by omega), if_neg (by omega), if_neg (by omega), if_pos hhigh]

theorem write_clear (r : Mmc3) (value : UInt8) (h : Clears addr) :
    (r.write addr value).registers =
      { r with timer := { r.timer with enabled := false }.clear } := by
  obtain ⟨hlow, heven⟩ := h
  unfold write writeEven
  rw [if_neg (by omega), if_pos heven, if_neg (by omega), if_neg (by omega), if_neg (by omega)]

theorem write_enable (r : Mmc3) (value : UInt8) (h : EnableAt addr) :
    (r.write addr value).registers = { r with timer.enabled := true } := by
  obtain ⟨hlow, hodd⟩ := h
  unfold write writeOdd
  rw [if_neg (by omega), if_neg (by omega), if_neg (by omega), if_neg (by omega),
    if_neg (by omega)]

theorem write_below (r : Mmc3) (value : UInt8) (h : addr < 0xC000) :
    (r.write addr value).registers.timer = r.timer ∧
      (r.write addr value).registers.reload = r.reload := by
  unfold write writeEven writeOdd
  repeat' split
  all_goals exact ⟨rfl, rfl⟩

/-- A write that does not set the pace leaves it. -/
theorem write_pace (r : Mmc3) (value : UInt8) (h : ¬ (0xC000 ≤ addr ∧ addr < 0xE000)) :
    (r.write addr value).registers.timer.latch = r.timer.latch ∧
      (r.write addr value).registers.timer.count = r.timer.count ∧
      (r.write addr value).registers.reload = r.reload := by
  by_cases hlow : addr < 0xC000
  · obtain ⟨htimer, hreload⟩ := r.write_below value hlow
    exact ⟨congrArg Timer.latch htimer, congrArg Timer.count htimer, hreload⟩
  · rcases Nat.mod_two_eq_zero_or_one addr with heven | hodd
    · rw [r.write_clear value ⟨by omega, heven⟩]
      exact ⟨rfl, rfl, rfl⟩
    · rw [r.write_enable value ⟨by omega, hodd⟩]
      exact ⟨rfl, rfl, rfl⟩

/-! ## One command -/

theorem scanline_timer (h : r.scanline = .ok r') :
    r'.timer.latch = r.timer.latch ∧ r'.reload = false ∧ r'.timer.enabled = r.timer.enabled ∧
      r'.timer.count = (if r.timer.count = 0 ∨ r.reload then r.timer.latch
        else r.timer.count - 1) ∧
      (r'.timer.pending = true ↔
        r.timer.pending = true ∨ r.timer.enabled = true ∧ r'.timer.count = 0) := by
  have hcounted : r.counted.timer.latch = r.timer.latch ∧ r.counted.reload = false ∧
      r.counted.timer.enabled = r.timer.enabled ∧
      r.counted.timer.count = (if r.timer.count = 0 ∨ r.reload then r.timer.latch
        else r.timer.count - 1) ∧ r.counted.timer.pending = r.timer.pending := by
    unfold counted
    split
    · exact ⟨rfl, rfl, rfl, rfl, rfl⟩
    · rename_i hcount
      exact ⟨rfl, by simpa using fun hreload => hcount (.inr hreload), rfl, rfl, rfl⟩
  obtain ⟨hlatch, hreload, henabled, hcount, hpending⟩ := hcounted
  rw [scanline_eq] at h
  cases h
  by_cases hfires : r.counted.timer.enabled = true ∧ r.counted.timer.count = 0
  · rw [if_pos hfires]
    refine ⟨hlatch, hreload, henabled, hcount, iff_of_true rfl (.inr ?_)⟩
    rw [← henabled]
    exact hfires
  · rw [if_neg hfires]
    refine ⟨hlatch, hreload, henabled, hcount, ?_⟩
    rw [hpending, ← henabled]
    exact (or_iff_left hfires).symm

/-! ## The pace -/

/-- Where the counter stands so many scanlines after a reload was asked for. -/
def place (top : Nat) : Nat → Nat
  | 0 => 0
  | n + 1 => top - n % (top + 1)

theorem add_one_mod (n top : Nat) :
    (n + 1) % (top + 1) = if n % (top + 1) = top then 0 else n % (top + 1) + 1 := by
  have hlt : n % (top + 1) < top + 1 := Nat.mod_lt n (Nat.succ_pos top)
  rw [← Nat.mod_add_mod]
  split
  · rename_i hlast
    rw [hlast, Nat.mod_self]
  · exact Nat.mod_eq_of_lt (by omega)

/-- The counter goes from zero back to the top. -/
theorem place_succ (top n : Nat) :
    place top (n + 1) = if place top n = 0 then top else place top n - 1 := by
  cases n with
  | zero => simp [place]
  | succ n =>
    have hlt : n % (top + 1) < top + 1 := Nat.mod_lt n (Nat.succ_pos top)
    have hplace : place top (n + 1) = top - n % (top + 1) := rfl
    by_cases hlast : n % (top + 1) = top
    · rw [if_pos (by omega), place, add_one_mod, if_pos hlast, Nat.sub_zero]
    · rw [if_neg (by omega), hplace, place, add_one_mod, if_neg hlast]
      omega

theorem place_of_pos {top n : Nat} (hn : 1 ≤ n) : place top n = top - (n - 1) % (top + 1) := by
  obtain ⟨k, rfl⟩ := Nat.exists_eq_add_of_le' hn
  rfl

theorem place_succ_eq_zero {top n : Nat} : place top (n + 1) = 0 ↔ (n + 1) % (top + 1) = 0 := by
  have hlt : n % (top + 1) < top + 1 := Nat.mod_lt n (Nat.succ_pos top)
  rw [place, add_one_mod]
  split <;> omega

/-- A reload was asked for so many scanlines ago, with this byte in the latch. -/
structure Running (top : UInt8) (n : Nat) (r : Mmc3) : Prop where
  latch : r.timer.latch = top.toUInt16
  reload : r.reload = true → n = 0
  count : r.timer.count.toNat = place top.toNat n

namespace Running

variable {top : UInt8} {n : Nat}

theorem scanline (h : Running top n r) (hscanline : r.scanline = .ok r') :
    Running top (n + 1) r' := by
  obtain ⟨hlatch, hreload, _, hcount, _⟩ := scanline_timer hscanline
  refine ⟨hlatch.trans h.latch, fun hasked => absurd hasked (by simp [hreload]), ?_⟩
  have hzero : r.timer.count = 0 ∨ r.reload = true ↔ place top.toNat n = 0 := by
    rw [← h.count, ← UInt16.toNat_inj]
    refine or_iff_left_of_imp ?_
    intro hasked
    rw [h.count, h.reload hasked]
    rfl
  rw [hcount, place_succ]
  by_cases hend : place top.toNat n = 0
  · rw [if_pos (hzero.mpr hend), if_pos hend, h.latch, UInt8.toNat_toUInt16]
  · have hpred := @Timer.Counter.toNat_pred r.timer.count (by rw [h.count]; exact hend)
    rw [if_neg (fun hstart => hend (hzero.mp hstart)), if_neg hend, ← h.count]
    omega

/-- Writes elsewhere do not disturb the counter. -/
theorem write (h : Running top n r) {addr : UInt16} (value : UInt8) (haddr : ¬ PaceAt addr) :
    Running top n (r.write addr.toNat value).registers := by
  obtain ⟨hlatch, hcount, hreload⟩ := r.write_pace value haddr
  exact ⟨hlatch.trans h.latch, fun hasked => h.reload (hreload ▸ hasked), hcount ▸ h.count⟩

end Running

/-! ## The line -/

/-- The first multiple of a period after a number is the next number, or has been reached, or lies
further on. -/
theorem next_multiple {period start n : Nat} (hstart : start ≤ n) :
    (start / period + 1) * period ≤ n + 1 ↔
      (start / period + 1) * period ≤ n ∨ (n + 1) % period = 0 := by
  constructor
  · intro hle
    by_cases hreached : (start / period + 1) * period ≤ n
    · exact .inl hreached
    · have hnext : (start / period + 1) * period = n + 1 := by omega
      rw [← hnext]
      exact .inr (Nat.mul_mod_left ..)
  · rintro (hreached | hmod)
    · omega
    · obtain ⟨q, hq⟩ := Nat.dvd_of_mod_eq_zero hmod
      have hlt : start / period < q := Nat.div_lt_of_lt_mul (by omega)
      rw [hq, Nat.mul_comm period]
      exact Nat.mul_le_mul_right period hlt

/-- The counter is running, and the line tells whether it has stood at zero since it was enabled
after so many scanlines; while it is not enabled the line is down. -/
structure Watched (top : UInt8) (on : Bool) (start n : Nat) (r : Mmc3) : Prop where
  running : Running top n r
  enabled : r.timer.enabled = on
  started : start ≤ n
  pending : r.timer.pending = true ↔
    on = true ∧ (start / (top.toNat + 1) + 1) * (top.toNat + 1) ≤ n

namespace Watched

variable {top : UInt8} {on : Bool} {start n : Nat}

theorem scanline (h : Watched top on start n r) (hscanline : r.scanline = .ok r') :
    Watched top on start (n + 1) r' := by
  have hrunning := h.running.scanline hscanline
  obtain ⟨_, _, henabled, _, hpending⟩ := scanline_timer hscanline
  have hzero : r'.timer.count = 0 ↔ (n + 1) % (top.toNat + 1) = 0 := by
    rw [← UInt16.toNat_inj, hrunning.count]
    exact place_succ_eq_zero
  refine ⟨hrunning, henabled.trans h.enabled, Nat.le_succ_of_le h.started, ?_⟩
  rw [hpending, h.pending, h.enabled, hzero, next_multiple h.started]
  exact and_or_left.symm

theorem write (h : Watched top on start n r) {addr : UInt16} (value : UInt8)
    (haddr : ¬ TimerAt addr) : Watched top on start n (r.write addr.toNat value).registers := by
  obtain ⟨htimer, _⟩ := r.write_below value (Nat.lt_of_not_le haddr)
  have hrunning := h.running.write value fun hpace => haddr hpace.1
  exact ⟨hrunning, htimer ▸ h.enabled, h.started, htimer ▸ h.pending⟩

theorem irqPending_iff (h : Watched top true start n r) {c : Cartridge}
    (hboard : c.board = .mmc3 r) :
    c.irqPending = true ↔ (start / (top.toNat + 1) + 1) * (top.toNat + 1) ≤ n := by
  rw [Cartridge.irqPending, hboard]
  exact h.pending.trans (and_iff_right rfl)

end Watched

/-! ## Runs -/

/-- What holds of the registers of the chip and a number of scanlines is kept by a run without
writes at some addresses, if a scanline and all other writes keep it. -/
theorem passes_keeps {place : UInt16 → Prop} [DecidablePred place] {P : Nat → Mmc3 → Prop}
    (hscanline : ∀ {n r r'}, P n r → r.scanline = .ok r' → P (n + 1) r')
    (hwrite : ∀ {n r}, P n r → ∀ {addr} value, ¬ place addr →
      P n (r.write addr.toNat value).registers)
    {commands : List Command} (hquiet : Command.written place commands = []) {b : Board}
    (h : (Board.mmc3 r).Passes commands b) {n : Nat} (hP : P n r) :
    ∃ r', b = .mmc3 r' ∧ P (n + Command.scanlines commands) r' := by
  refine h.keeps hquiet (P := fun n b => ∃ r, b = .mmc3 r ∧ P n r) ?_ ⟨r, rfl, hP⟩
  rintro n _ b' command ⟨r, rfl, hP⟩ hwritten hmoves
  cases hmoves.reacts with
  | write hreply heq =>
    cases hreply
    exact ⟨_, heq, hwrite hP _ (Command.not_place_of_written? hwritten)⟩
  | scanline _ hnext =>
    obtain ⟨r', hscanned, heq⟩ := Fault.bind_eq_ok_iff.mp hnext
    exact ⟨r', (Except.ok.inj heq).symm, hscanline hP hscanned⟩
  | read hkind => cases hkind
  | clock hkind => exact absurd rfl hkind
  | ignored hignored heq =>
    rw [hignored.isScanline rfl]
    exact ⟨r, heq, hP⟩

theorem passes_write {addr : UInt16} {value : UInt8} {rest : List Command} {b : Board}
    (h : (Board.mmc3 r).Passes (.event (.write addr value) :: rest) b) :
    (Board.mmc3 (r.write addr.toNat value).registers).Passes rest b := by
  obtain ⟨next, ⟨reply, hreply, rfl⟩, hrest⟩ := h
  cases hreply
  exact hrest

/-- The latch is written and a reload asked for; some time later the line is cleared, and after
that the counter is enabled. -/
theorem passes_watched {latchAt reloadAt clearAt enableAt : UInt16} (hlatch : LatchAt latchAt.toNat)
    (hreload : ReloadAt reloadAt.toNat) (hclear : Clears clearAt.toNat)
    (henable : EnableAt enableAt.toNat) {top : UInt8} {x y z : UInt8}
    {before between later : List Command} (hbefore : Command.written PaceAt before = [])
    (hbetween : Command.written TimerAt between = []) (hlater : Command.written TimerAt later = [])
    {b : Board}
    (h : (Board.mmc3 r).Passes (.event (.write latchAt top) :: .event (.write reloadAt x) ::
      (before ++ .event (.write clearAt y) ::
        (between ++ .event (.write enableAt z) :: later))) b) :
    ∃ r', b = .mmc3 r' ∧ Watched top true (Command.scanlines (before ++ between))
      (Command.scanlines (before ++ between) + Command.scanlines later) r' := by
  have hpaced := passes_write (passes_write h)
  rw [write_latch _ _ hlatch, write_reload _ _ hreload] at hpaced
  obtain ⟨_, hpasses, hcleared⟩ := Board.passes_append.mp hpaced
  obtain ⟨r₁, rfl, hrunning⟩ := passes_keeps Running.scanline Running.write hbefore hpasses
    (n := 0) (P := Running top) ⟨rfl, fun _ => rfl, rfl⟩
  have hcleared := passes_write hcleared
  rw [write_clear _ _ hclear] at hcleared
  obtain ⟨_, hpasses, henabled⟩ := Board.passes_append.mp hcleared
  obtain ⟨r₂, rfl, hdown⟩ := passes_keeps Watched.scanline Watched.write hbetween hpasses
    (P := Watched top false 0) ⟨⟨hrunning.latch, hrunning.reload, hrunning.count⟩, rfl,
      Nat.zero_le _, by simp [Timer.clear]⟩
  have henabled := passes_write henabled
  rw [write_enable _ _ henable] at henabled
  have hscanlines : Command.scanlines (before ++ between) =
      0 + Command.scanlines before + Command.scanlines between := by
    rw [Nat.zero_add]
    exact List.countP_append
  rw [hscanlines]
  refine passes_keeps Watched.scanline Watched.write hlater henabled (P := Watched top true _)
    ⟨⟨hdown.running.latch, hdown.running.reload, hdown.running.count⟩, rfl, Nat.le_refl _, ?_⟩
  refine iff_of_false (fun hline => Bool.false_ne_true (hdown.pending.mp hline).1) ?_
  rintro ⟨_, hle⟩
  rw [Nat.mul_comm] at hle
  exact Nat.not_le_of_lt (Nat.lt_mul_div_succ _ (Nat.succ_pos top.toNat)) hle

end Mmc3

open Command (written scanlines)

section

variable {m : Machine} {r : Mmc3} {latchAt reloadAt clearAt enableAt : UInt16}

theorem Machine.exists_watched_run (hm : m.cartridge.Reachable d) (hvideo : m.video.Fits d)
    (hboard : m.cartridge.board = .mmc3 r) (hlatch : Mmc3.LatchAt latchAt.toNat)
    (hreload : Mmc3.ReloadAt reloadAt.toNat) (hclear : Mmc3.Clears clearAt.toNat)
    (henable : Mmc3.EnableAt enableAt.toNat) (top x y z : UInt8)
    (before between later : List Command) (hrestore : ∀ s, .restore s ∉ before ++ between ++ later)
    (hbefore : written Mmc3.PaceAt before = []) (hbetween : written Mmc3.TimerAt between = [])
    (hlater : written Mmc3.TimerAt later = []) :
    ∃ last seen r', m.run (.event (.write latchAt top) :: .event (.write reloadAt x) ::
        (before ++ .event (.write clearAt y) ::
          (between ++ .event (.write enableAt z) :: later))) = .ok (last, seen) ∧
      last.cartridge.board = .mmc3 r' ∧ Mmc3.Watched top true (scanlines (before ++ between))
        (scanlines (before ++ between ++ later)) r' := by
  have hcommands : ∀ s, .restore s ∉ (.event (.write latchAt top) ::
      .event (.write reloadAt x) :: (before ++ .event (.write clearAt y) ::
        (between ++ .event (.write enableAt z) :: later)) : List Command) := by
    simpa using hrestore
  obtain ⟨last, seen, hrun, _, _, hpasses⟩ :=
    exists_passing_run hm hvideo fun s hs => absurd hs (hcommands s)
  rw [hboard] at hpasses
  obtain ⟨r', hlast, hwatched⟩ := Mmc3.passes_watched hlatch hreload hclear henable hbefore
    hbetween hlater hpasses
  refine ⟨last, seen, r', hrun, hlast, ?_⟩
  rw [show scanlines (before ++ between ++ later) = _ from List.countP_append]
  exact hwatched

/-- The scanline counter keeps time from every reachable state. Once the latch has been written, a
reload asked for, the line cleared and the counter enabled, it stands after each scanline where the
number of scanlines says, and the line is up from the scanline on that completes the first round.
The line may also be cleared and the counter enabled later than that: then the line goes up with
the first scanline after it that completes a round. Whatever else is done meanwhile has no
influence, as long as nothing is written to the registers in question. -/
theorem scanline_interrupts_on_time (hm : m.cartridge.Reachable d) (hvideo : m.video.Fits d)
    (hboard : m.cartridge.board = .mmc3 r) (hlatch : Mmc3.LatchAt latchAt.toNat)
    (hreload : Mmc3.ReloadAt reloadAt.toNat) (hclear : Mmc3.Clears clearAt.toNat)
    (henable : Mmc3.EnableAt enableAt.toNat) (top x y z : UInt8) :
    (∀ later, (∀ s, .restore s ∉ later) → written Mmc3.TimerAt later = [] →
      ∃ last seen r', m.run (.event (.write latchAt top) :: .event (.write reloadAt x) ::
          .event (.write clearAt y) :: .event (.write enableAt z) :: later) = .ok (last, seen) ∧
        last.cartridge.board = .mmc3 r' ∧
        (1 ≤ scanlines later →
          r'.timer.count.toNat = top.toNat - (scanlines later - 1) % (top.toNat + 1)) ∧
        (last.cartridge.irqPending = true ↔ top.toNat + 1 ≤ scanlines later)) ∧
    ∀ before between later, (∀ s, .restore s ∉ before ++ between ++ later) →
      written Mmc3.PaceAt before = [] → written Mmc3.TimerAt between = [] →
      written Mmc3.TimerAt later = [] →
      ∃ last seen r', m.run (.event (.write latchAt top) :: .event (.write reloadAt x) ::
          (before ++ .event (.write clearAt y) ::
            (between ++ .event (.write enableAt z) :: later))) = .ok (last, seen) ∧
        last.cartridge.board = .mmc3 r' ∧
        (1 ≤ scanlines (before ++ between ++ later) → r'.timer.count.toNat =
          top.toNat - (scanlines (before ++ between ++ later) - 1) % (top.toNat + 1)) ∧
        (last.cartridge.irqPending = true ↔
          (scanlines (before ++ between) / (top.toNat + 1) + 1) * (top.toNat + 1) ≤
            scanlines (before ++ between ++ later)) := by
  constructor
  · intro later hrestore hlater
    obtain ⟨last, seen, r', hrun, hlast, hwatched⟩ := Machine.exists_watched_run hm hvideo hboard
      hlatch hreload hclear henable top x y z [] [] later hrestore rfl rfl hlater
    refine ⟨last, seen, r', hrun, hlast, ?_, ?_⟩
    · intro hsome
      exact hwatched.running.count.trans (Mmc3.place_of_pos hsome)
    · rw [hwatched.irqPending_iff hlast, show scanlines ([] ++ []) = 0 from rfl, Nat.zero_div,
        Nat.zero_add, Nat.one_mul]
      rfl
  · intro before between later hrestore hbefore hbetween hlater
    obtain ⟨last, seen, r', hrun, hlast, hwatched⟩ := Machine.exists_watched_run hm hvideo hboard
      hlatch hreload hclear henable top x y z before between later hrestore hbefore hbetween hlater
    refine ⟨last, seen, r', hrun, hlast, ?_, hwatched.irqPending_iff hlast⟩
    intro hsome
    exact hwatched.running.count.trans (Mmc3.place_of_pos hsome)

/-- With two in the latch a round takes three scanlines. The line is cleared after four of them, in
the middle of the second round, and the sixth raises it. -/
theorem scanline_interrupts_on_time_tlrom :
    ∃ c notes, Cartridge.load .tlrom (.zeroed 0x8000) #[] = .ok { value := .ok c, notes } ∧
      ∃ last seen r', Machine.run { cartridge := c, video := .cleared .tlrom }
          [.event (.write 0xC000 2), .event (.write 0xC001 0xFF), .event .scanline,
            .event .scanline, .event (.write 0xE001 0), .event .scanline, .event .scanline,
            .event (.write 0xFFFE 0), .event (.write 0xA001 0), .event (.write 0xFFFF 0),
            .event .scanline, .event .clock, .event .acknowledge, .event .scanline] =
          .ok (last, seen) ∧
        last.cartridge.board = .mmc3 r' ∧ r'.timer.count.toNat = 0 ∧
        last.cartridge.irqPending = true := by
  obtain ⟨c, notes, hload, hboard⟩ := Descriptor.tlrom_load
  obtain ⟨_, hlater⟩ := scanline_interrupts_on_time
    (m := { cartridge := c, video := .cleared .tlrom }) (.load hload) ⟨rfl, rfl⟩ hboard
    (show Mmc3.LatchAt (0xC000 : UInt16).toNat from ⟨by decide, by decide, rfl⟩)
    (show Mmc3.ReloadAt (0xC001 : UInt16).toNat from ⟨by decide, by decide, rfl⟩)
    (show Mmc3.Clears (0xFFFE : UInt16).toNat from ⟨by decide, rfl⟩)
    (show Mmc3.EnableAt (0xFFFF : UInt16).toNat from ⟨by decide, rfl⟩) 2 0xFF 0 0
  obtain ⟨last, seen, r', hrun, hlast, hcount, hline⟩ := hlater
    [.event .scanline, .event .scanline, .event (.write 0xE001 0), .event .scanline,
      .event .scanline] [.event (.write 0xA001 0)]
    [.event .scanline, .event .clock, .event .acknowledge, .event .scanline] (by simp) rfl rfl rfl
  exact ⟨c, notes, hload, last, seen, r', hrun, hlast, hcount (by decide), hline.mpr (by decide)⟩

end

end GamePak
