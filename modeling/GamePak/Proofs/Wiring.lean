import GamePak.Proofs.Persistence

/-!
What is soldered. Some fields of a board are not registers but connections: they are set from the
descriptor at power-on and no write, read, cycle or scanline changes them. To erase every other
field of a board leaves what is soldered, and a board is wired for a descriptor if that is what it
is on the board that the descriptor gives at power-on. Every reachable cartridge has such a board,
and with it the memory sizes that its kind takes.
-/

namespace GamePak

variable {d : Descriptor}

/-! ## Power-on, by chip -/

/-- The sizes of program memory that a kind of board takes, smallest and largest. -/
def BoardKind.prgSizes : BoardKind → Nat × Nat
  | discrete .nrom => (0x4000, 0x8000)
  | discrete .uxrom => (0x8000, 0x400000)
  | discrete .cnrom => (0x4000, 0x8000)
  | discrete .axrom => (0x8000, 0x80000)
  | discrete .colorDreams => (0x8000, 0x20000)
  | discrete .gxrom => (0x8000, 0x20000)
  | mmc1 => (0x8000, 0x80000)
  | mmc2 => (0x20000, 0x20000)
  | mmc3 => (0x8000, 0x80000)
  | fcg => (0x8000, 0x40000)
  | vrc4 => (0x8000, 0x40000)
  | fme7 => (0x8000, 0x80000)
  | codemasters => (0x10000, 0x40000)
  | vrc3 => (0x8000, 0x20000)

/-- The program memory of a descriptor is of a size that the kind of board takes. -/
def BoardKind.Holds (k : BoardKind) (d : Descriptor) : Prop :=
  k.prgSizes.1 ≤ d.prgSize ∧ d.prgSize ≤ k.prgSizes.2

theorem Discrete.start?_eq_some {b : Discrete} {reply : Reply Discrete}
    (h : b.start? d = some reply) :
    (BoardKind.discrete b).Holds d ∧ reply = { registers := b, selects := b.powerOn } := by
  unfold start? at h
  split at h
  · rename_i hfit
    cases h
    refine ⟨?_, rfl⟩
    obtain ⟨_, hsizes⟩ := hfit
    cases b <;> simp only [SizesFit] at hsizes <;>
      simp only [BoardKind.Holds, BoardKind.prgSizes] <;> omega
  · cases h

theorem Mmc1.start?_eq_some {reply : Reply Mmc1} (h : start? d = some reply) :
    BoardKind.mmc1.Holds d ∧ ∃ r : Mmc1,
      r = { outerPrg := d.prgSize == 0x80000, wramBanks := d.wramSize / 0x2000 } ∧
      reply = { registers := r, selects := r.selects } := by
  unfold start? at h
  split at h
  · rename_i hfit
    cases h
    exact ⟨⟨hfit.2.1, hfit.2.2.1⟩, _, rfl, rfl⟩
  · cases h

theorem Mmc2.start?_eq_some {reply : Reply Mmc2} (h : start? d = some reply) :
    BoardKind.mmc2.Holds d ∧
      reply = { registers := {}, selects := [.prgBefore 1 2, .prgBefore 2 1, .prgBefore 3 0] } := by
  unfold start? at h
  split at h
  · rename_i hfit
    cases h
    have hsize : d.prgSize = 0x20000 := hfit.2.1
    refine ⟨?_, rfl⟩
    simp only [BoardKind.Holds, BoardKind.prgSizes]
    omega
  · cases h

theorem Mmc3.start?_eq_some {reply : Reply Mmc3} (h : start? d = some reply) :
    BoardKind.mmc3.Holds d ∧ ∃ r : Mmc3, r = { fixedMirroring := d.mirroring = .fourScreen } ∧
      reply = { registers := r, selects := r.selects } := by
  unfold start? at h
  split at h
  · rename_i hfit
    cases h
    exact ⟨⟨hfit.2.1, hfit.2.2.1⟩, _, rfl, rfl⟩
  · cases h

theorem Fcg.start?_eq_some {reply : Reply Fcg} (h : start? d = some reply) :
    BoardKind.fcg.Holds d ∧
      reply = { registers := { variety := varietyOf d }, selects := [.prgFromEnd 1 0] } := by
  unfold start? at h
  split at h
  · rename_i hfit
    cases h
    exact ⟨⟨hfit.2.1, hfit.2.2.1⟩, rfl⟩
  · cases h

theorem Vrc4.start?_eq_some {reply : Reply Vrc4} (h : start? d = some reply) :
    BoardKind.vrc4.Holds d ∧ ∃ mapper, wiring? d = some mapper ∧ ∃ r : Vrc4,
      r = {
        mapper
        latch := if mapper = 22 ∨ d.wramSize = 0 then some false else none
        timer := if mapper = 22 then none else some { counter := .up8, ack := .registerWrite } } ∧
      reply = { registers := r, selects := .prgFromEnd 3 0 :: r.prgSelects } := by
  obtain ⟨mapper, hmapper, h⟩ := Option.bind_eq_some_iff.mp h
  split at h
  · rename_i hfit
    cases h
    exact ⟨⟨hfit.1, hfit.2.1⟩, mapper, hmapper, _, rfl, rfl⟩
  · cases h

theorem Fme7.start?_eq_some {reply : Reply Fme7} (h : start? d = some reply) :
    BoardKind.fme7.Holds d ∧ reply = { registers := {}, selects := [.prgFromEnd 4 0] } := by
  unfold start? at h
  split at h
  · rename_i hfit
    cases h
    exact ⟨⟨hfit.2.1, hfit.2.2.1⟩, rfl⟩
  · cases h

theorem Codemasters.start?_eq_some {reply : Reply Codemasters} (h : start? d = some reply) :
    BoardKind.codemasters.Holds d ∧
      reply = {
        registers := { mirroringControl := d.board == "CAMERICA-BF9097" || d.submapper == 1 }
        selects := [.prgFromEnd 1 0] } := by
  unfold start? at h
  split at h
  · rename_i hfit
    cases h
    exact ⟨⟨hfit.2.1, hfit.2.2.1⟩, rfl⟩
  · cases h

theorem Vrc3.start?_eq_some {reply : Reply Vrc3} (h : start? d = some reply) :
    BoardKind.vrc3.Holds d ∧ reply = { registers := {}, selects := [.prgFromEnd 1 0] } := by
  unfold start? at h
  split at h
  · rename_i hfit
    cases h
    exact ⟨⟨hfit.2.1, hfit.2.2.1⟩, rfl⟩
  · cases h

/-! ## What is soldered, by chip -/

namespace Timer

/-- How the timer is built; all that can be written to it is erased. -/
def soldered (t : Timer) : Timer := { counter := t.counter, ack := t.ack }

theorem tick_soldered {t t' : Timer} {rolled : Bool} (h : t.tick = .ok (rolled, t')) :
    t'.soldered = t.soldered := by
  obtain ⟨⟨_, count⟩, _, heq⟩ := Fault.bind_eq_ok_iff.mp h
  cases heq
  rfl

theorem clock_soldered {t t' : Timer} {rolled : Bool} (h : t.clock = .ok (rolled, t')) :
    t'.soldered = t.soldered := by
  unfold clock at h
  split at h
  · cases h
    rfl
  · split at h
    · exact tick_soldered h
    · obtain ⟨left, _, h⟩ := Fault.bind_eq_ok_iff.mp h
      split at h
      · cases h
        rfl
      · have hticked := tick_soldered h
        exact hticked

theorem acknowledge_soldered (t : Timer) : t.acknowledge.soldered = t.soldered := by
  unfold acknowledge
  split <;> rfl

theorem writeControl_soldered (t : Timer) (c : Control) :
    (t.writeControl c).soldered = t.soldered := by
  unfold writeControl
  split <;> rfl

end Timer

namespace Mmc1

def soldered (r : Mmc1) : Mmc1 := { outerPrg := r.outerPrg, wramBanks := r.wramBanks }

theorem commit_soldered (r : Mmc1) (addr : Nat) (value : UInt8) :
    (r.commit addr value).registers.soldered = r.soldered := by
  unfold commit
  simp only
  repeat' split
  all_goals rfl

theorem write_soldered {r : Mmc1} {addr : Nat} {value : UInt8} {reply : Reply Mmc1}
    (h : r.write addr value = .ok reply) : reply.registers.soldered = r.soldered := by
  unfold write at h
  split at h
  · cases h
    rfl
  · split at h
    · cases h
      rfl
    · obtain ⟨count, _, h⟩ := Fault.bind_eq_ok_iff.mp h
      split at h
      · cases h
        rfl
      · cases h
        exact r.commit_soldered addr _

end Mmc1

namespace Mmc3

def soldered (r : Mmc3) : Mmc3 where
  banks := Vector.replicate 8 0
  fixedMirroring := r.fixedMirroring
  timer := r.timer.soldered

theorem write_soldered (r : Mmc3) (addr : Nat) (value : UInt8) :
    (r.write addr value).registers.soldered = r.soldered := by
  unfold write writeEven writeOdd
  repeat' split
  all_goals rfl

theorem scanline_soldered {r r' : Mmc3} (h : r.scanline = .ok r') :
    r'.soldered = r.soldered := by
  rw [scanline_eq] at h
  cases h
  unfold counted
  repeat' split
  all_goals rfl

end Mmc3

namespace Fcg

def soldered (r : Fcg) : Fcg := { variety := r.variety, timer := r.timer.soldered }

theorem write_soldered (r : Fcg) (addr : Nat) (value : UInt8) :
    (r.write addr value).registers.soldered = r.soldered := by
  unfold write writeEnable writeLow writeHigh
  simp only
  repeat' split
  all_goals rfl

end Fcg

namespace Vrc4

def soldered (r : Vrc4) : Vrc4 where
  mapper := r.mapper
  latch := r.latch.map fun _ => false
  timer := r.timer.map Timer.soldered

theorem writeTimer_soldered (t : Timer) (register : Nat) (value : UInt8) :
    (writeTimer t register value).soldered = t.soldered := by
  unfold writeTimer
  split
  · rfl
  · rfl
  · exact t.writeControl_soldered _
  · rfl

theorem write_soldered (r : Vrc4) (addr : Nat) (value : UInt8) :
    (r.write addr value).registers.soldered = r.soldered := by
  have hlatch : { r with latch := r.latch.map fun _ => value.toNat.testBit 0 }.soldered =
      r.soldered := by
    simp only [soldered, Option.map_map]
    rfl
  have htimer : { r with timer := r.timer.map (writeTimer · (r.register addr) value) }.soldered =
      r.soldered := by
    simp only [soldered, Option.map_map, Function.comp_def, writeTimer_soldered]
  unfold write writeChr
  simp only
  repeat' split
  all_goals first | rfl | exact hlatch | exact htimer

theorem write_mapper (r : Vrc4) (addr : Nat) (value : UInt8) :
    (r.write addr value).registers.mapper = r.mapper := by
  have hsoldered := r.write_soldered addr value
  have hmapper : (r.write addr value).registers.soldered.mapper = r.soldered.mapper :=
    congrArg Vrc4.mapper hsoldered
  exact hmapper

end Vrc4

namespace Fme7

def soldered (r : Fme7) : Fme7 := { timer := r.timer.soldered }

theorem write_soldered (r : Fme7) (addr : Nat) (value : UInt8) :
    (r.write addr value).registers.soldered = r.soldered := by
  unfold write parameter writeWorkArea writeSwitches
  repeat' split
  all_goals rfl

end Fme7

theorem Codemasters.write_registers (r : Codemasters) (addr : Nat) (value : UInt8) :
    (r.write addr value).registers = r := by
  unfold write
  simp only
  repeat' split
  all_goals rfl

namespace Vrc3

/-- The mode bit picks the counter, so that it is erased too. -/
def soldered (r : Vrc3) : Vrc3 := { timer := { r.timer.soldered with counter := .up16 } }

theorem write_soldered (r : Vrc3) (addr : Nat) (value : UInt8) :
    (r.write addr value).registers.soldered = r.soldered := by
  have hcontrol : (r.writeControl value).soldered = r.soldered := by
    unfold writeControl Timer.writeControl
    simp only
    repeat' split
    all_goals rfl
  unfold write writeLatch
  repeat' split
  all_goals first | rfl | exact hcontrol

end Vrc3

/-! ## Boards of a kind -/

/-- The registers of a board of this kind. -/
abbrev BoardKind.Registers : BoardKind → Type
  | discrete _ => Unit
  | mmc1 => Mmc1
  | mmc2 => Mmc2
  | mmc3 => Mmc3
  | fcg => Fcg
  | vrc4 => Vrc4
  | fme7 => Fme7
  | codemasters => Codemasters
  | vrc3 => Vrc3

/-- The board of this kind that holds these. -/
def BoardKind.board : (k : BoardKind) → k.Registers → Board
  | discrete b, _ => .discrete b
  | mmc1, r => .mmc1 r
  | mmc2, r => .mmc2 r
  | mmc3, r => .mmc3 r
  | fcg, r => .fcg r
  | vrc4, r => .vrc4 r
  | fme7, r => .fme7 r
  | codemasters, r => .codemasters r
  | vrc3, r => .vrc3 r

theorem BoardKind.kind_board (k : BoardKind) (r : k.Registers) : (k.board r).kind = k := by
  cases k <;> rfl

namespace Board

variable {b b' : Board}

theorem exists_of_kind {k : BoardKind} (h : b.kind = k) : ∃ r, b = k.board r := by
  subst h
  cases b with
  | discrete b => exact ⟨(), rfl⟩
  | mmc1 r => exact ⟨r, rfl⟩
  | mmc2 r => exact ⟨r, rfl⟩
  | mmc3 r => exact ⟨r, rfl⟩
  | fcg r => exact ⟨r, rfl⟩
  | vrc4 r => exact ⟨r, rfl⟩
  | fme7 r => exact ⟨r, rfl⟩
  | codemasters r => exact ⟨r, rfl⟩
  | vrc3 r => exact ⟨r, rfl⟩

/-- The board with every register erased, so that only what is soldered is left. -/
def soldered : Board → Board
  | discrete b => discrete b
  | mmc1 r => mmc1 r.soldered
  | mmc2 _ => mmc2 {}
  | mmc3 r => mmc3 r.soldered
  | fcg r => fcg r.soldered
  | vrc4 r => vrc4 r.soldered
  | fme7 r => fme7 r.soldered
  | codemasters r => codemasters r
  | vrc3 r => vrc3 r.soldered

theorem soldered_kind (b : Board) : b.soldered.kind = b.kind := by
  cases b <;> rfl

theorem write_soldered {addr : UInt16} {value : UInt8} {reply : Reply Board}
    (h : b.write addr value = .ok reply) : reply.registers.soldered = b.soldered := by
  cases b with
  | mmc1 r =>
    obtain ⟨own, hown, heq⟩ := Fault.bind_eq_ok_iff.mp h
    cases heq
    exact congrArg mmc1 (Mmc1.write_soldered hown)
  | mmc3 r =>
    cases h
    exact congrArg mmc3 (r.write_soldered addr.toNat value)
  | fcg r =>
    cases h
    exact congrArg fcg (r.write_soldered addr.toNat value)
  | vrc4 r =>
    cases h
    exact congrArg vrc4 (r.write_soldered addr.toNat value)
  | fme7 r =>
    cases h
    exact congrArg fme7 (r.write_soldered addr.toNat value)
  | vrc3 r =>
    cases h
    exact congrArg vrc3 (r.write_soldered addr.toNat value)
  | codemasters r =>
    cases h
    exact congrArg codemasters (r.write_registers addr.toNat value)
  | discrete b =>
    cases h
    rfl
  | mmc2 r =>
    cases h
    rfl

theorem afterRead_soldered (b : Board) (addr : Nat) :
    (b.afterRead addr).registers.soldered = b.soldered := by
  cases b <;> rfl

theorem mapTimer_soldered {f : Timer → Timer}
    (h : ∀ t ∈ b.timer?, (f t).soldered = t.soldered) :
    (b.mapTimer f).soldered = b.soldered := by
  cases b with
  | mmc3 r => simp only [mapTimer, soldered, Mmc3.soldered, h r.timer rfl]
  | fcg r => simp only [mapTimer, soldered, Fcg.soldered, h r.timer rfl]
  | vrc4 r =>
    have htimer : (r.timer.map f).map Timer.soldered = r.timer.map Timer.soldered := by
      cases ht : r.timer with
      | none => rfl
      | some t => exact congrArg some (h t ht)
    simp only [mapTimer, soldered, Vrc4.soldered, htimer]
  | fme7 r => simp only [mapTimer, soldered, Fme7.soldered, h r.timer rfl]
  | vrc3 r => simp only [mapTimer, soldered, Vrc3.soldered, h r.timer rfl]
  | _ => rfl

/-- What a cycle does: it clocks the timer, if there is one and it counts cycles. -/
theorem clock_cases (h : b.clock = .ok b') :
    (b' = b ∧ (b.kind = .mmc3 ∨ b.timer? = none)) ∨
      b.kind ≠ .mmc3 ∧ ∃ t rolled t', b.timer? = some t ∧ t.clock = .ok (rolled, t') ∧
        b' = b.mapTimer fun _ => t' := by
  cases b with
  | mmc3 r =>
    cases h
    exact .inl ⟨rfl, .inl rfl⟩
  | fcg r =>
    obtain ⟨⟨rolled, t⟩, ht, heq⟩ := Fault.bind_eq_ok_iff.mp h
    cases heq
    exact .inr ⟨nofun, r.timer, rolled, t, rfl, ht, rfl⟩
  | vrc4 r =>
    unfold clock at h
    simp only at h
    split at h
    · rename_i old hold
      obtain ⟨⟨rolled, t⟩, ht, heq⟩ := Fault.bind_eq_ok_iff.mp h
      cases heq
      refine .inr ⟨nofun, old, rolled, t, hold, ht, ?_⟩
      simp only [mapTimer, hold, Option.map_some]
    · rename_i hnone
      cases h
      exact .inl ⟨rfl, .inr hnone⟩
  | fme7 r =>
    obtain ⟨⟨rolled, t⟩, ht, heq⟩ := Fault.bind_eq_ok_iff.mp h
    cases heq
    exact .inr ⟨nofun, r.timer, rolled, t, rfl, ht, rfl⟩
  | vrc3 r =>
    obtain ⟨⟨rolled, t⟩, ht, heq⟩ := Fault.bind_eq_ok_iff.mp h
    cases heq
    exact .inr ⟨nofun, r.timer, rolled, t, rfl, ht, rfl⟩
  | _ =>
    cases h
    exact .inl ⟨rfl, .inr rfl⟩

theorem scanline_of_ne (h : b.kind ≠ .mmc3) : b.scanline = .ok b := by
  cases b with
  | mmc3 r => exact absurd rfl h
  | _ => rfl

theorem afterRead_of_ne (h : b.kind ≠ .mmc2) (addr : Nat) :
    b.afterRead addr = { registers := b } := by
  cases b with
  | mmc2 r => exact absurd rfl h
  | _ => rfl

theorem clock_soldered (h : b.clock = .ok b') : b'.soldered = b.soldered := by
  rcases clock_cases h with ⟨rfl, _⟩ | ⟨_, t, rolled, t', ht, hclock, rfl⟩
  · rfl
  · refine mapTimer_soldered ?_
    intro u hu
    rw [ht] at hu
    cases hu
    exact Timer.clock_soldered hclock

theorem scanline_soldered (h : b.scanline = .ok b') : b'.soldered = b.soldered := by
  cases b with
  | mmc3 r =>
    obtain ⟨own, hown, heq⟩ := Fault.bind_eq_ok_iff.mp h
    cases heq
    exact congrArg mmc3 (Mmc3.scanline_soldered hown)
  | _ =>
    cases h
    rfl

theorem acknowledge_soldered (b : Board) : b.acknowledge.soldered = b.soldered :=
  mapTimer_soldered fun t _ => t.acknowledge_soldered

/-- What power-on shows of a descriptor: its size is one that the kind takes. The timer then has its
line down and is left to the board to acknowledge. -/
theorem start_holds {k : BoardKind} {reply : Reply Board} (h : k.start? d = some reply) :
    k.Holds d ∧ ∀ t ∈ reply.registers.timer?, t.ack = .registerWrite ∧ t.pending = false := by
  have hsome : ∀ {t : Timer}, t.ack = .registerWrite → t.pending = false →
      ∀ u ∈ some t, u.ack = .registerWrite ∧ u.pending = false := by
    rintro t hack hline u ⟨⟩
    exact ⟨hack, hline⟩
  have hnone : ∀ t ∈ (none : Option Timer), t.ack = .registerWrite ∧ t.pending = false := nofun
  cases k with
  | discrete b =>
    obtain ⟨own, hown, rfl⟩ := Option.map_eq_some_iff.mp h
    obtain ⟨hholds, rfl⟩ := Discrete.start?_eq_some hown
    exact ⟨hholds, hnone⟩
  | mmc1 =>
    obtain ⟨own, hown, rfl⟩ := Option.map_eq_some_iff.mp h
    obtain ⟨hholds, r, rfl, rfl⟩ := Mmc1.start?_eq_some hown
    exact ⟨hholds, hnone⟩
  | mmc2 =>
    obtain ⟨own, hown, rfl⟩ := Option.map_eq_some_iff.mp h
    obtain ⟨hholds, rfl⟩ := Mmc2.start?_eq_some hown
    exact ⟨hholds, hnone⟩
  | mmc3 =>
    obtain ⟨own, hown, rfl⟩ := Option.map_eq_some_iff.mp h
    obtain ⟨hholds, r, rfl, rfl⟩ := Mmc3.start?_eq_some hown
    exact ⟨hholds, hsome rfl rfl⟩
  | fcg =>
    obtain ⟨own, hown, rfl⟩ := Option.map_eq_some_iff.mp h
    obtain ⟨hholds, rfl⟩ := Fcg.start?_eq_some hown
    exact ⟨hholds, hsome rfl rfl⟩
  | vrc4 =>
    obtain ⟨own, hown, rfl⟩ := Option.map_eq_some_iff.mp h
    obtain ⟨hholds, mapper, _, r, rfl, rfl⟩ := Vrc4.start?_eq_some hown
    refine ⟨hholds, ?_⟩
    simp only [Reply.map, timer?]
    split
    · exact hnone
    · exact hsome rfl rfl
  | fme7 =>
    obtain ⟨own, hown, rfl⟩ := Option.map_eq_some_iff.mp h
    obtain ⟨hholds, rfl⟩ := Fme7.start?_eq_some hown
    exact ⟨hholds, hsome rfl rfl⟩
  | codemasters =>
    obtain ⟨own, hown, rfl⟩ := Option.map_eq_some_iff.mp h
    obtain ⟨hholds, rfl⟩ := Codemasters.start?_eq_some hown
    exact ⟨hholds, hnone⟩
  | vrc3 =>
    obtain ⟨own, hown, rfl⟩ := Option.map_eq_some_iff.mp h
    obtain ⟨hholds, rfl⟩ := Vrc3.start?_eq_some hown
    exact ⟨hholds, hsome rfl rfl⟩

/-! ## Boards wired for a descriptor -/

/-- What is soldered is what the descriptor gives at power-on. -/
def Wired (d : Descriptor) (b : Board) : Prop :=
  ∃ reply, b.kind.start? d = some reply ∧ reply.registers.soldered = b.soldered

theorem Wired.of_soldered (h : b.Wired d) (heq : b'.soldered = b.soldered) : b'.Wired d := by
  have hkind : b'.kind = b.kind := by
    rw [← b'.soldered_kind, heq, b.soldered_kind]
  rw [Wired, hkind, heq]
  exact h

theorem Wired.holds (h : b.Wired d) : b.kind.Holds d := by
  obtain ⟨reply, hstart, _⟩ := h
  exact (start_holds hstart).1

/-- The MMC1 has the outer bank bit connected for the largest program memory only. -/
theorem Wired.outerPrg {r : Mmc1} (h : (mmc1 r).Wired d) :
    r.outerPrg = (d.prgSize == 0x80000) := by
  obtain ⟨reply, hstart, hreply⟩ := h
  obtain ⟨own, hown, rfl⟩ := Option.map_eq_some_iff.mp hstart
  obtain ⟨_, start, rfl, rfl⟩ := Mmc1.start?_eq_some hown
  exact (congrArg Mmc1.outerPrg (mmc1.inj hreply)).symm

theorem wired_persists : Persists d fun b _ => b.Wired d where
  start := by
    intro k reply _ _ hstart _ _
    refine ⟨reply, ?_, rfl⟩
    rw [(BoardKind.start_keeps hstart).kind]
    exact hstart
  write := fun h hwrite _ => h.of_soldered (write_soldered hwrite)
  afterRead := fun h _ => h.of_soldered (afterRead_soldered _ _)
  clock := fun h hclock => h.of_soldered (clock_soldered hclock)
  scanline := fun h hscanline => h.of_soldered (scanline_soldered hscanline)
  acknowledge := fun h => h.of_soldered (acknowledge_soldered _)

end Board

theorem Cartridge.Reachable.wired {c : Cartridge} (hc : c.Reachable d) : c.board.Wired d :=
  Board.wired_persists.reachable hc

end GamePak
