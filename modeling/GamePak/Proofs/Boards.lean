import GamePak.Proofs.Banks
import GamePak.Proofs.Timer

/-!
What every board keeps. A register write, the read of a tile, a cycle and a scanline leave a board
of the same kind with its registers in range, and every selection that a board makes names a page
of its own layout. The registers may come from anywhere, as long as they are in range.
-/

namespace GamePak

/-- The reply leaves a board of the given kind, in range, and selects pages of its layout only. -/
structure Reply.Keeps (d : Descriptor) (k : BoardKind) (r : Reply Board) : Prop where
  kind : r.registers.kind = k
  valid : r.registers.Valid
  fits : ∀ s ∈ r.selects, s.Fits d k.layout

section

variable {d : Descriptor}

/-! ## Boards without registers to check -/

namespace Discrete

theorem start_fits {b : Discrete} {r : Reply Discrete} (h : b.start? d = some r) :
    r.registers = b ∧ ∀ s ∈ r.selects, s.Fits d b.layout := by
  unfold start? at h
  split at h
  · cases h
    refine ⟨rfl, ?_⟩
    cases b <;> simp [powerOn, Select.Fits, layout, Layout.even]
  · cases h

theorem write_fits (b : Discrete) (addr : Nat) (value : UInt8) :
    ∀ s ∈ (b.write addr value).selects, s.Fits d b.layout := by
  unfold write
  simp only
  split
  · simp
  · cases b <;> simp [latch, Select.Fits, layout, Layout.even]

end Discrete

namespace Codemasters

theorem start_fits {r : Reply Codemasters} (h : start? d = some r) :
    ∀ s ∈ r.selects, s.Fits d layout := by
  unfold start? at h
  split at h
  · cases h
    simp [Select.Fits, layout, Layout.even]
  · cases h

theorem write_fits (r : Codemasters) (addr : Nat) (value : UInt8) :
    ∀ s ∈ (r.write addr value).selects, s.Fits d layout := by
  unfold write
  simp only
  repeat' split
  all_goals simp [Select.Fits, layout, Layout.even]

end Codemasters

namespace Mmc2

theorem selects_fits (r : Mmc2) : ∀ s ∈ r.selects, s.Fits d layout := by
  simp [selects, Select.Fits, layout, Layout.even]

theorem write_fits (r : Mmc2) (addr : Nat) (value : UInt8) :
    ∀ s ∈ (r.write addr value).selects, s.Fits d layout := by
  unfold write
  repeat' split
  all_goals simp [selects, Select.Fits, layout, Layout.even]

theorem afterRead_fits (r : Mmc2) (addr : Nat) :
    ∀ s ∈ (r.afterRead addr).selects, s.Fits d layout := by
  unfold afterRead
  simp only
  split
  · exact selects_fits _
  · simp

/-- The three fixed banks are there, since the board takes one size of program memory only. -/
theorem start_fits {r : Reply Mmc2} (h : start? d = some r) :
    ∀ s ∈ r.selects, s.Fits d layout := by
  unfold start? at h
  split at h
  · rename_i hfit
    cases h
    have hsize : d.prgSize = 0x20000 := hfit.2.1
    simp [Select.Fits, layout, Layout.even, hsize]
  · cases h

end Mmc2

/-! ## The serial input of the MMC1 -/

namespace Mmc1

theorem selects_fits (r : Mmc1) : ∀ s ∈ r.selects, s.Fits d layout := by
  unfold selects chrSelects prgSelects
  cases r.chrMode <;> cases r.prgMode <;> simp [Select.Fits, layout, Layout.even]

theorem start_keeps {r : Reply Mmc1} (h : start? d = some r) :
    r.registers.Valid ∧ ∀ s ∈ r.selects, s.Fits d layout := by
  unfold start? at h
  split at h
  · cases h
    exact ⟨(by decide : (0 : UInt8) < 5), selects_fits _⟩
  · cases h

theorem commit_valid (r : Mmc1) (addr : Nat) (value : UInt8) :
    (r.commit addr value).registers.Valid := by
  unfold commit
  simp only
  repeat' split
  all_goals exact (by decide : (0 : UInt8) < 5)

theorem commit_fits (r : Mmc1) (addr : Nat) (value : UInt8) :
    ∀ s ∈ (r.commit addr value).selects, s.Fits d layout := by
  unfold commit
  simp only
  repeat' split
  · intro s hs
    rcases List.mem_cons.mp hs with rfl | hs
    · trivial
    · exact selects_fits _ s hs
  all_goals exact selects_fits _

/-- Below five, the number of bits in the serial input can be counted on. -/
theorem nextByte_of_lt {count : UInt8} (h : count < 5) :
    Count.nextByte count = .ok (count + 1) := by
  refine if_neg ?_
  rintro rfl
  exact absurd h (by decide)

theorem exists_write {r : Mmc1} (hr : r.Valid) (addr : Nat) (value : UInt8) :
    ∃ reply, r.write addr value = .ok reply ∧ reply.registers.Valid ∧
      ∀ s ∈ reply.selects, s.Fits d layout := by
  have hcount : Count.nextByte r.shiftCount = .ok (r.shiftCount + 1) := nextByte_of_lt hr
  unfold write
  split
  · exact ⟨_, rfl, hr, by simp⟩
  · split
    · exact ⟨_, rfl, (by decide : (0 : UInt8) < 5), selects_fits _⟩
    · rw [hcount]
      simp only [bind, Except.bind]
      split
      · rename_i hlt
        exact ⟨_, rfl, hlt, by simp⟩
      · exact ⟨_, rfl, commit_valid _ _ _, commit_fits _ _ _⟩

end Mmc1

/-! ## Boards with a timer -/

namespace Mmc3

theorem selects_fits (r : Mmc3) : ∀ s ∈ r.selects, s.Fits d layout := by
  unfold selects prgSelects chrSelects
  cases r.prgSwapped <;> cases r.chrSwapped <;> simp [Select.Fits, layout, Layout.even]

theorem start_keeps {r : Reply Mmc3} (h : start? d = some r) :
    r.registers.timer.Valid ∧ ∀ s ∈ r.selects, s.Fits d layout := by
  unfold start? at h
  split at h
  · cases h
    exact ⟨Timer.valid_zero rfl, selects_fits _⟩
  · cases h

theorem write_prescaler (r : Mmc3) (addr : Nat) (value : UInt8) :
    (r.write addr value).registers.timer.prescaler = r.timer.prescaler := by
  unfold write writeEven writeOdd
  repeat' split
  all_goals rfl

theorem write_fits (r : Mmc3) (addr : Nat) (value : UInt8) :
    ∀ s ∈ (r.write addr value).selects, s.Fits d layout := by
  unfold write
  split
  · simp
  · split
    · unfold writeEven
      split
      · exact selects_fits _
      · split
        · split <;> simp [Select.Fits]
        · split <;> simp
    · unfold writeOdd
      split
      · exact selects_fits _
      · split
        · simp
        · split <;> simp

/-- The registers once the counter has been stepped, before the line is looked at. -/
def counted (r : Mmc3) : Mmc3 :=
  if r.timer.count = 0 ∨ r.reload then { r with timer.count := r.timer.latch, reload := false }
  else { r with timer.count := r.timer.count - 1 }

/-- The counter is decreased only where it is not zero, so that a scanline meets no fault. -/
theorem scanline_eq (r : Mmc3) :
    r.scanline = .ok (if r.counted.timer.enabled ∧ r.counted.timer.count = 0 then
      { r.counted with timer := r.counted.timer.raise } else r.counted) := by
  unfold scanline counted
  split
  · rfl
  · rename_i hcount
    have hne : r.timer.count ≠ 0 := fun h => hcount (Or.inl h)
    simp only [Count.prev, hne, if_false]
    rfl

theorem exists_scanline (r : Mmc3) :
    ∃ r', r.scanline = .ok r' ∧ r'.timer.prescaler = r.timer.prescaler := by
  refine ⟨_, r.scanline_eq, ?_⟩
  unfold counted
  repeat' split
  all_goals rfl

end Mmc3

namespace Fcg

theorem start_keeps {r : Reply Fcg} (h : start? d = some r) :
    r.registers.timer.Valid ∧ ∀ s ∈ r.selects, s.Fits d layout := by
  unfold start? at h
  split at h
  · cases h
    exact ⟨Timer.valid_zero rfl, by simp [Select.Fits, layout, Layout.even]⟩
  · cases h

theorem writeEnable_prescaler (r : Fcg) (addr : Nat) (value : UInt8) :
    (r.writeEnable addr value).timer.prescaler = r.timer.prescaler := by
  unfold writeEnable
  simp only
  split <;> rfl

theorem writeLow_prescaler (r : Fcg) (addr : Nat) (value : UInt8) :
    (r.writeLow addr value).timer.prescaler = r.timer.prescaler := by
  unfold writeLow
  split <;> rfl

theorem writeHigh_prescaler (r : Fcg) (addr : Nat) (value : UInt8) :
    (r.writeHigh addr value).timer.prescaler = r.timer.prescaler := by
  unfold writeHigh
  split <;> rfl

theorem write_prescaler (r : Fcg) (addr : Nat) (value : UInt8) :
    (r.write addr value).registers.timer.prescaler = r.timer.prescaler := by
  unfold write
  split
  · rfl
  · split
    · rfl
    · rfl
    · exact r.writeEnable_prescaler addr value
    · exact r.writeLow_prescaler addr value
    · exact r.writeHigh_prescaler addr value
    · rfl
    · split <;> rfl

theorem write_fits (r : Fcg) (addr : Nat) (value : UInt8) :
    ∀ s ∈ (r.write addr value).selects, s.Fits d layout := by
  unfold write
  repeat' split
  all_goals simp_all [Select.Fits, layout, Layout.even]

end Fcg

namespace Fme7

theorem start_keeps {r : Reply Fme7} (h : start? d = some r) :
    r.registers.timer.Valid ∧ ∀ s ∈ r.selects, s.Fits d layout := by
  unfold start? at h
  split at h
  · cases h
    exact ⟨Timer.valid_zero rfl, by simp [Select.Fits, layout]⟩
  · cases h

theorem write_prescaler (r : Fme7) (addr : Nat) (value : UInt8) :
    (r.write addr value).registers.timer.prescaler = r.timer.prescaler := by
  unfold write parameter writeWorkArea writeSwitches
  repeat' split
  all_goals rfl

theorem writeWorkArea_fits (r : Fme7) (value : UInt8) :
    ∀ s ∈ (r.writeWorkArea value).selects, s.Fits d layout := by
  unfold writeWorkArea
  simp only
  split
  · simp [Select.Fits]
  · simp [Select.Fits, layout]

theorem parameter_fits (r : Fme7) (value : UInt8) :
    ∀ s ∈ (r.parameter value).selects, s.Fits d layout := by
  have hcommand : r.command.toNat % 16 < 16 := Nat.mod_lt _ (by omega)
  unfold parameter
  split
  · exact r.writeWorkArea_fits value
  · simp [Select.Fits, layout]
  · simp [Select.Fits, layout]
  · simp [Select.Fits, layout]
  · simp [Select.Fits]
  · simp
  · simp
  · simp
  · -- What is left of the sixteen commands are the eight pattern pages.
    simp only [imp_false, List.mem_singleton, forall_eq, Select.Fits, layout] at *
    omega

theorem write_fits (r : Fme7) (addr : Nat) (value : UInt8) :
    ∀ s ∈ (r.write addr value).selects, s.Fits d layout := by
  unfold write
  split
  · simp
  · split
    · simp
    · split
      · exact r.parameter_fits value
      · simp

end Fme7

namespace Vrc3

theorem start_keeps {r : Reply Vrc3} (h : start? d = some r) :
    r.registers.timer.Valid ∧ ∀ s ∈ r.selects, s.Fits d layout := by
  unfold start? at h
  split at h
  · cases h
    exact ⟨Timer.valid_zero rfl, by simp [Select.Fits, layout, Layout.even]⟩
  · cases h

theorem write_valid {r : Vrc3} (hr : r.timer.Valid) (addr : Nat) (value : UInt8) :
    (r.write addr value).registers.timer.Valid := by
  have hcontrol : (r.writeControl value).timer.Valid :=
    Timer.writeControl_valid hr (Timer.Control.ofByte value)
  unfold write writeLatch
  repeat' split
  all_goals assumption

theorem write_fits (r : Vrc3) (addr : Nat) (value : UInt8) :
    ∀ s ∈ (r.write addr value).selects, s.Fits d layout := by
  unfold write
  repeat' split
  all_goals simp [Select.Fits, layout, Layout.even]

end Vrc3

namespace Vrc4

theorem register_lt (r : Vrc4) (addr : Nat) : r.register addr < 4 := by
  unfold register
  obtain ⟨a0, a1⟩ := lines r.mapper addr
  cases a0 <;> cases a1 <;> decide

theorem prgSelects_fits (r : Vrc4) : ∀ s ∈ r.prgSelects, s.Fits d layout := by
  unfold prgSelects
  split <;> simp [Select.Fits, layout, Layout.even]

theorem start_keeps {r : Reply Vrc4} (h : start? d = some r) :
    (∀ t ∈ r.registers.timer, t.Valid) ∧ ∀ s ∈ r.selects, s.Fits d layout := by
  obtain ⟨mapper, _, h⟩ := Option.bind_eq_some_iff.mp h
  split at h
  · cases h
    constructor
    · intro t ht
      by_cases hmapper : mapper = 22
      · simp [hmapper] at ht
      · simp only [hmapper, if_false, Option.mem_some_iff] at ht
        rw [← ht]
        exact Timer.valid_zero rfl
    · intro s hs
      rcases List.mem_cons.mp hs with rfl | hs
      · exact (by decide : 3 < 4)
      · exact prgSelects_fits _ s hs
  · cases h

theorem writeTimer_valid {t : Timer} (ht : t.Valid) (register : Nat) (value : UInt8) :
    (writeTimer t register value).Valid := by
  unfold writeTimer
  split
  · exact ht
  · exact ht
  · exact Timer.writeControl_valid ht _
  · exact ht

theorem write_valid {r : Vrc4} (hr : ∀ t ∈ r.timer, t.Valid) (addr : Nat) (value : UInt8) :
    ∀ t ∈ (r.write addr value).registers.timer, t.Valid := by
  have htimer : ∀ t ∈ r.timer.map (writeTimer · (r.register addr) value), t.Valid := by
    intro t ht
    obtain ⟨old, hold, rfl⟩ := Option.map_eq_some_iff.mp ht
    exact writeTimer_valid (hr old hold) _ _
  unfold write writeChr
  simp only
  repeat' split
  all_goals assumption

theorem writeChr_fits (r : Vrc4) {page : Nat} (hpage : page < 8) (high : Bool) (value : UInt8) :
    ∀ s ∈ (r.writeChr page high value).selects, s.Fits d layout := by
  simpa [writeChr, chrSelect, Select.Fits, layout, Layout.even] using hpage

theorem write_fits (r : Vrc4) (addr : Nat) (value : UInt8) :
    ∀ s ∈ (r.write addr value).selects, s.Fits d layout := by
  have hregister := r.register_lt addr
  unfold write
  simp only
  split
  · simp
  · split
    · simp
    · split
      · exact prgSelects_fits _
      · split
        · split
          · exact prgSelects_fits _
          · simp [Select.Fits]
        · split
          · simp [Select.Fits, layout, Layout.even]
          · split
            · exact r.writeChr_fits (by omega) _ value
            · simp

end Vrc4

/-! ## All boards -/

theorem BoardKind.start_keeps {k : BoardKind} {r : Reply Board} (h : k.start? d = some r) :
    r.Keeps d k := by
  cases k with
  | discrete b =>
    obtain ⟨reply, hreply, rfl⟩ := Option.map_eq_some_iff.mp h
    obtain ⟨hregisters, hfits⟩ := Discrete.start_fits hreply
    exact ⟨congrArg BoardKind.discrete hregisters, Timer.valid_none, hfits⟩
  | mmc1 =>
    obtain ⟨reply, hreply, rfl⟩ := Option.map_eq_some_iff.mp h
    obtain ⟨hvalid, hfits⟩ := Mmc1.start_keeps hreply
    exact ⟨rfl, hvalid, hfits⟩
  | mmc2 =>
    obtain ⟨reply, hreply, rfl⟩ := Option.map_eq_some_iff.mp h
    exact ⟨rfl, Timer.valid_none, Mmc2.start_fits hreply⟩
  | mmc3 =>
    obtain ⟨reply, hreply, rfl⟩ := Option.map_eq_some_iff.mp h
    obtain ⟨hvalid, hfits⟩ := Mmc3.start_keeps hreply
    exact ⟨rfl, hvalid.some, hfits⟩
  | fcg =>
    obtain ⟨reply, hreply, rfl⟩ := Option.map_eq_some_iff.mp h
    obtain ⟨hvalid, hfits⟩ := Fcg.start_keeps hreply
    exact ⟨rfl, hvalid.some, hfits⟩
  | vrc4 =>
    obtain ⟨reply, hreply, rfl⟩ := Option.map_eq_some_iff.mp h
    obtain ⟨hvalid, hfits⟩ := Vrc4.start_keeps hreply
    exact ⟨rfl, hvalid, hfits⟩
  | fme7 =>
    obtain ⟨reply, hreply, rfl⟩ := Option.map_eq_some_iff.mp h
    obtain ⟨hvalid, hfits⟩ := Fme7.start_keeps hreply
    exact ⟨rfl, hvalid.some, hfits⟩
  | codemasters =>
    obtain ⟨reply, hreply, rfl⟩ := Option.map_eq_some_iff.mp h
    exact ⟨rfl, Timer.valid_none, Codemasters.start_fits hreply⟩
  | vrc3 =>
    obtain ⟨reply, hreply, rfl⟩ := Option.map_eq_some_iff.mp h
    obtain ⟨hvalid, hfits⟩ := Vrc3.start_keeps hreply
    exact ⟨rfl, hvalid.some, hfits⟩

namespace Board

variable {b : Board}

theorem exists_write (hb : b.Valid) (addr : UInt16) (value : UInt8) :
    ∃ r, b.write addr value = .ok r ∧ r.Keeps d b.kind := by
  cases b with
  | discrete b => exact ⟨_, rfl, rfl, Timer.valid_none, b.write_fits addr.toNat value⟩
  | mmc1 r =>
    obtain ⟨reply, hreply, hvalid, hfits⟩ := Mmc1.exists_write (d := d) hb addr.toNat value
    refine ⟨reply.map mmc1, ?_, rfl, hvalid, hfits⟩
    simp only [write, hreply, bind, Except.bind]
    rfl
  | mmc2 r => exact ⟨_, rfl, rfl, Timer.valid_none, r.write_fits addr.toNat value⟩
  | mmc3 r =>
    have hvalid := (hb r.timer rfl).of_prescaler (r.write_prescaler addr.toNat value)
    exact ⟨_, rfl, rfl, hvalid.some, r.write_fits addr.toNat value⟩
  | fcg r =>
    have hvalid := (hb r.timer rfl).of_prescaler (r.write_prescaler addr.toNat value)
    exact ⟨_, rfl, rfl, hvalid.some, r.write_fits addr.toNat value⟩
  | vrc4 r =>
    exact ⟨_, rfl, rfl, Vrc4.write_valid hb addr.toNat value, r.write_fits addr.toNat value⟩
  | fme7 r =>
    have hvalid := (hb r.timer rfl).of_prescaler (r.write_prescaler addr.toNat value)
    exact ⟨_, rfl, rfl, hvalid.some, r.write_fits addr.toNat value⟩
  | codemasters r => exact ⟨_, rfl, rfl, Timer.valid_none, r.write_fits addr.toNat value⟩
  | vrc3 r =>
    have hvalid := Vrc3.write_valid (hb r.timer rfl) addr.toNat value
    exact ⟨_, rfl, rfl, hvalid.some, r.write_fits addr.toNat value⟩

theorem afterRead_keeps (hb : b.Valid) (addr : Nat) : (b.afterRead addr).Keeps d b.kind := by
  cases b with
  | mmc2 r => exact ⟨rfl, Timer.valid_none, r.afterRead_fits addr⟩
  | discrete b => exact ⟨rfl, hb, nofun⟩
  | mmc1 r => exact ⟨rfl, hb, nofun⟩
  | mmc3 r => exact ⟨rfl, hb, nofun⟩
  | fcg r => exact ⟨rfl, hb, nofun⟩
  | vrc4 r => exact ⟨rfl, hb, nofun⟩
  | fme7 r => exact ⟨rfl, hb, nofun⟩
  | codemasters r => exact ⟨rfl, hb, nofun⟩
  | vrc3 r => exact ⟨rfl, hb, nofun⟩

theorem exists_clock (hb : b.Valid) :
    ∃ b', b.clock = .ok b' ∧ b'.kind = b.kind ∧ b'.Valid := by
  cases b with
  | discrete b => exact ⟨_, rfl, rfl, hb⟩
  | mmc1 r => exact ⟨_, rfl, rfl, hb⟩
  | mmc2 r => exact ⟨_, rfl, rfl, hb⟩
  | mmc3 r => exact ⟨_, rfl, rfl, hb⟩
  | fcg r =>
    obtain ⟨rolled, t, ht, hvalid⟩ := Timer.exists_clock (hb r.timer rfl)
    refine ⟨fcg { r with timer := t }, ?_, rfl, hvalid.some⟩
    simp only [clock, ht, bind, Except.bind]
    rfl
  | vrc4 r =>
    cases htimer : r.timer with
    | none =>
      refine ⟨vrc4 r, ?_, rfl, hb⟩
      simp only [clock, htimer]
      rfl
    | some old =>
      obtain ⟨rolled, t, ht, hvalid⟩ := Timer.exists_clock (hb old htimer)
      refine ⟨vrc4 { r with timer := some t }, ?_, rfl, hvalid.some⟩
      simp only [clock, htimer, ht, bind, Except.bind]
      rfl
  | fme7 r =>
    obtain ⟨rolled, t, ht, hvalid⟩ := Timer.exists_clock (hb r.timer rfl)
    refine ⟨fme7 { r with timer := t }, ?_, rfl, hvalid.some⟩
    simp only [clock, ht, bind, Except.bind]
    rfl
  | codemasters r => exact ⟨_, rfl, rfl, hb⟩
  | vrc3 r =>
    obtain ⟨rolled, t, ht, hvalid⟩ := Timer.exists_clock (hb r.timer rfl)
    refine ⟨vrc3 { r with timer := t }, ?_, rfl, hvalid.some⟩
    simp only [clock, ht, bind, Except.bind]
    rfl

theorem exists_scanline (hb : b.Valid) :
    ∃ b', b.scanline = .ok b' ∧ b'.kind = b.kind ∧ b'.Valid := by
  cases b with
  | mmc3 r =>
    obtain ⟨r', hr', hpre⟩ := r.exists_scanline
    refine ⟨mmc3 r', ?_, rfl, ((hb r.timer rfl).of_prescaler hpre).some⟩
    simp only [scanline, hr', bind, Except.bind]
    rfl
  | discrete b => exact ⟨_, rfl, rfl, hb⟩
  | mmc1 r => exact ⟨_, rfl, rfl, hb⟩
  | mmc2 r => exact ⟨_, rfl, rfl, hb⟩
  | fcg r => exact ⟨_, rfl, rfl, hb⟩
  | vrc4 r => exact ⟨_, rfl, rfl, hb⟩
  | fme7 r => exact ⟨_, rfl, rfl, hb⟩
  | codemasters r => exact ⟨_, rfl, rfl, hb⟩
  | vrc3 r => exact ⟨_, rfl, rfl, hb⟩

theorem acknowledge_kind (b : Board) : b.acknowledge.kind = b.kind := by
  cases b <;> rfl

theorem acknowledge_valid (hb : b.Valid) : b.acknowledge.Valid := by
  cases b with
  | mmc3 r => exact (Timer.acknowledge_valid (hb r.timer rfl)).some
  | fcg r => exact (Timer.acknowledge_valid (hb r.timer rfl)).some
  | vrc4 r =>
    intro t ht
    obtain ⟨old, hold, rfl⟩ := Option.map_eq_some_iff.mp ht
    exact Timer.acknowledge_valid (hb old hold)
  | fme7 r => exact (Timer.acknowledge_valid (hb r.timer rfl)).some
  | vrc3 r => exact (Timer.acknowledge_valid (hb r.timer rfl)).some
  | discrete b => exact hb
  | mmc1 r => exact hb
  | mmc2 r => exact hb
  | codemasters r => exact hb

/-- Only one chip puts program memory below 8000, and its window begins there. -/
theorem prgStart_of_rom (h : b.workArea = .rom) : b.kind.layout.prgStart = 0x6000 := by
  cases b with
  | fme7 r => rfl
  | mmc1 r =>
    simp only [workArea, Mmc1.workArea] at h
    split at h <;> cases h
  | mmc3 r =>
    simp only [workArea, Mmc3.workArea] at h
    split at h
    · cases h
    · split at h <;> cases h
  | vrc4 r =>
    simp only [workArea, Vrc4.workArea] at h
    split at h <;> cases h
  | fcg r => cases h
  | discrete b => cases h
  | mmc2 r => cases h
  | codemasters r => cases h
  | vrc3 r => cases h

end Board

end

end GamePak
