import GamePak.Proofs.Selections
import GamePak.Proofs.Wiring

/-!
Time and the buses. The pulses that drive a timer reach its count, its prescaler and its line, and
the reload flag of the MMC3, but nothing that says what an address reaches. Accesses other than
register writes look at none of these four, and all that they can change of a board are the
latches of the MMC2, which has no timer. So an access and a pulse can change places, and with them
any number of accesses and pulses: how the two are interleaved cannot be told from the outcome.
-/

namespace GamePak

variable {d : Descriptor}

/-- What drives a timer, and the processor's acknowledgement of its interrupt. -/
inductive Pulse where
  | clock
  | scanline
  | acknowledge

/-- What the buses do other than write registers. -/
inductive Access where
  | read (addr : UInt16)
  | readVideo (addr : UInt16)
  | writeVideo (addr : UInt16) (value : UInt8)

def Pulse.event : Pulse → Event
  | clock => .clock
  | scanline => .scanline
  | acknowledge => .acknowledge

def Access.event : Access → Event
  | read addr => .read addr
  | readVideo addr => .readVideo addr
  | writeVideo addr value => .writeVideo addr value

/-- The events are the accesses and the pulses, each of the two in their own order. -/
inductive Interleaves : List Access → List Pulse → List Event → Prop where
  | nil : Interleaves [] [] []
  | access {a : Access} {accesses : List Access} {pulses : List Pulse} {events : List Event}
      (h : Interleaves accesses pulses events) :
      Interleaves (a :: accesses) pulses (a.event :: events)
  | pulse {p : Pulse} {accesses : List Access} {pulses : List Pulse} {events : List Event}
      (h : Interleaves accesses pulses events) :
      Interleaves accesses (p :: pulses) (p.event :: events)

/-- The chip with its latches set as given. -/
def Mmc2.latched (r : Mmc2) (low high : Mmc2.Latch) : Mmc2 where
  low := { r.low with latch := low }
  high := { r.high with latch := high }

/-- Reading a tile does nothing, or sets a latch and shows the banks that are current then. -/
theorem Mmc2.afterRead_cases (r : Mmc2) (addr : Nat) :
    r.afterRead addr = { registers := r } ∨ ∃ low high, r.afterRead addr =
      { registers := r.latched low high, selects := (r.latched low high).selects } := by
  unfold afterRead
  by_cases hlowFd : addr = 0x0FD8
  · exact .inr ⟨.fd, r.high.latch, by rw [if_pos hlowFd]; rfl⟩
  rw [if_neg hlowFd]
  by_cases hlowFe : addr = 0x0FE8
  · exact .inr ⟨.fe, r.high.latch, by rw [if_pos hlowFe]; rfl⟩
  rw [if_neg hlowFe]
  by_cases hhighFd : 0x1FD8 ≤ addr ∧ addr ≤ 0x1FDF
  · exact .inr ⟨r.low.latch, .fd, by rw [if_pos hhighFd]; rfl⟩
  rw [if_neg hhighFd]
  by_cases hhighFe : 0x1FE8 ≤ addr ∧ addr ≤ 0x1FEF
  · exact .inr ⟨r.low.latch, .fe, by rw [if_pos hhighFe]; rfl⟩
  rw [if_neg hhighFe]
  exact .inl rfl

/-! ## What a pulse changes -/

namespace Timer

/-- The timer with all erased that a pulse can change. -/
def still (t : Timer) : Timer := { t with count := 0, prescaler := 0, pending := false }

variable {t t' : Timer} {rolled : Bool}

theorem tick_still (h : t.tick = .ok (rolled, t')) : t'.still = t.still := by
  obtain ⟨⟨_, count⟩, _, heq⟩ := Fault.bind_eq_ok_iff.mp h
  cases heq
  rfl

theorem clock_still (h : t.clock = .ok (rolled, t')) : t'.still = t.still := by
  unfold clock at h
  split at h
  · cases h
    rfl
  · split at h
    · exact tick_still h
    · obtain ⟨left, _, h⟩ := Fault.bind_eq_ok_iff.mp h
      split at h
      · cases h
        rfl
      · have hticked := tick_still h
        exact hticked

theorem acknowledge_still (t : Timer) : t.acknowledge.still = t.still := by
  unfold acknowledge
  split <;> rfl

end Timer

namespace Board

variable {b b' : Board}

/-- The board with all erased that a pulse can change. -/
def still : Board → Board
  | mmc3 r => mmc3 { r with reload := false, timer := r.timer.still }
  | b => b.mapTimer Timer.still

def pulse (b : Board) : Pulse → Except Fault Board
  | .clock => b.clock
  | .scanline => b.scanline
  | .acknowledge => return b.acknowledge

theorem mapTimer_still {f : Timer → Timer} (h : ∀ t ∈ b.timer?, (f t).still = t.still) :
    (b.mapTimer f).still = b.still := by
  cases b with
  | mmc3 r => simp only [mapTimer, still, h r.timer rfl]
  | fcg r => simp only [mapTimer, still, h r.timer rfl]
  | vrc4 r =>
    have htimer : (r.timer.map f).map Timer.still = r.timer.map Timer.still := by
      cases ht : r.timer with
      | none => rfl
      | some t => exact congrArg some (h t ht)
    simp only [mapTimer, still, htimer]
  | fme7 r => simp only [mapTimer, still, h r.timer rfl]
  | vrc3 r => simp only [mapTimer, still, h r.timer rfl]
  | _ => rfl

theorem scanline_still (h : b.scanline = .ok b') : b'.still = b.still := by
  cases b with
  | mmc3 r =>
    obtain ⟨own, hown, heq⟩ := Fault.bind_eq_ok_iff.mp h
    cases heq
    rw [Mmc3.scanline_eq] at hown
    cases hown
    unfold Mmc3.counted
    repeat' split
    all_goals rfl
  | _ =>
    cases h
    rfl

theorem pulse_still {p : Pulse} (h : b.pulse p = .ok b') : b'.still = b.still := by
  cases p with
  | clock =>
    rcases clock_cases h with ⟨rfl, _⟩ | ⟨_, t, rolled, t', ht, hclock, rfl⟩
    · rfl
    · apply mapTimer_still
      intro u hu
      rw [ht] at hu
      cases hu
      exact Timer.clock_still hclock
  | scanline => exact scanline_still h
  | acknowledge =>
    cases h
    exact mapTimer_still fun t _ => t.acknowledge_still

theorem exists_pulse (hb : b.Valid) (p : Pulse) : ∃ b', b.pulse p = .ok b' := by
  cases p with
  | clock =>
    obtain ⟨b', hclock, _⟩ := exists_clock hb
    exact ⟨b', hclock⟩
  | scanline =>
    obtain ⟨b', hscanline, _⟩ := exists_scanline hb
    exact ⟨b', hscanline⟩
  | acknowledge => exact ⟨_, rfl⟩

theorem still_kind (b : Board) : b.still.kind = b.kind := by
  cases b <;> rfl

theorem pulse_kind {p : Pulse} (h : b.pulse p = .ok b') : b'.kind = b.kind := by
  rw [← b'.still_kind, pulse_still h, b.still_kind]

/-! ## What an access looks at, and what it changes -/

theorem still_workArea (b : Board) : b.still.workArea = b.workArea := by
  cases b <;> rfl

theorem still_readRegister (b : Board) : b.still.readRegister = b.readRegister := by
  cases b <;> rfl

theorem mapPrg_of_still (h : b'.still = b.still) (banks : Banks) (addr : UInt16) :
    b'.mapPrg banks addr = b.mapPrg banks addr := by
  have harea : b'.workArea = b.workArea := by
    rw [← b'.still_workArea, h, b.still_workArea]
  unfold mapPrg
  rw [harea]

/-- A pulse may come before or after a tile is noticed: the one board that notices it has no
timer. -/
theorem afterRead_pulse {p : Pulse} (h : b.pulse p = .ok b') (addr : Nat) :
    (b'.afterRead addr).selects = (b.afterRead addr).selects ∧
      (b.afterRead addr).registers.pulse p = .ok (b'.afterRead addr).registers := by
  by_cases hkind : b.kind = .mmc2
  · cases b with
    | mmc2 r =>
      have hidle : ∀ r : Mmc2, (mmc2 r).pulse p = .ok (mmc2 r) := by
        intro r
        cases p <;> rfl
      rw [hidle] at h
      cases h
      exact ⟨rfl, hidle _⟩
    | _ => cases hkind
  · have hkind' : b'.kind ≠ .mmc2 := by
      rw [pulse_kind h]
      exact hkind
    rw [afterRead_of_ne hkind, afterRead_of_ne hkind']
    exact ⟨rfl, h⟩

/-- The board with its latches erased, if it has any. -/
def unlatched : Board → Board
  | mmc2 r => mmc2 (r.latched .fe .fe)
  | b => b

theorem afterRead_unlatched (b : Board) (addr : Nat) :
    (b.afterRead addr).registers.unlatched = b.unlatched := by
  cases b with
  | mmc2 r =>
    rcases r.afterRead_cases addr with hnone | ⟨low, high, hset⟩
    · rw [afterRead, hnone]
      rfl
    · rw [afterRead, hset]
      rfl
  | _ => rfl

theorem chr_of_mem_afterRead {s : Select} {addr : Nat} (h : s ∈ (b.afterRead addr).selects) :
    ∃ page bank, s = .chr page bank := by
  cases b with
  | mmc2 r =>
    rcases r.afterRead_cases addr with hnone | ⟨low, high, hset⟩
    · rw [afterRead, hnone] at h
      cases h
    · rw [afterRead, hset] at h
      rcases List.mem_cons.mp h with hlow | h
      · exact ⟨_, _, hlow⟩
      · exact ⟨_, _, List.mem_singleton.mp h⟩
  | _ => cases h

end Board

/-- Selections in the pattern window change the banks that its pages show and nothing else. -/
theorem Banks.applyAll_chr {b b' : Banks} {selects : List Select}
    (hselects : ∀ s ∈ selects, ∃ page bank, s = .chr page bank)
    (h : b.applyAll selects = .ok b') :
    ∃ pages, b' = { b with chr := { b.chr with pages } } := by
  induction selects generalizing b with
  | nil =>
    cases h
    exact ⟨_, rfl⟩
  | cons s rest ih =>
    obtain ⟨next, hnext, hrest⟩ := Fault.bind_eq_ok_iff.mp h
    obtain ⟨page, bank, rfl⟩ := hselects s (List.mem_cons_self ..)
    obtain ⟨w, hw, heq⟩ := Fault.bind_eq_ok_iff.mp hnext
    cases heq
    obtain ⟨_, rfl⟩ := Window.select_eq_ok_iff.mp hw
    obtain ⟨pages, rfl⟩ := ih (fun s hs => hselects s (List.mem_cons_of_mem _ hs)) hrest
    exact ⟨pages, rfl⟩

/-! ## One access and one pulse -/

theorem Cartridge.read_of_still {c : Cartridge} {board : Board} (h : board.still = c.board.still)
    (addr : UInt16) : { c with board }.read addr = c.read addr := by
  have hregister : board.readRegister = c.board.readRegister := by
    rw [← board.still_readRegister, h, c.board.still_readRegister]
  simp only [read, Board.mapPrg_of_still h, hregister]

namespace Machine

variable {m next after : Machine} {answer : Answer}

theorem step_pulse_iff {p : Pulse} :
    m.step p.event = .ok (next, answer) ↔ ∃ board, m.cartridge.board.pulse p = .ok board ∧
      next = { m with cartridge := { m.cartridge with board } } ∧ answer = .done := by
  -- Each pulse hands the board on and leaves the rest of the machine.
  have hhand : ∀ {operation : Except Fault Board},
      (do
        let c ← (do return { m.cartridge with board := ← operation } : Except Fault Cartridge)
        return ({ m with cartridge := c }, Answer.done) : Except Fault (Machine × Answer)) =
          .ok (next, answer) ↔
      ∃ board, operation = .ok board ∧
        next = { m with cartridge := { m.cartridge with board } } ∧ answer = .done := by
    intro operation
    cases operation with
    | error e => simp [bind, Except.bind]
    | ok board => simp [bind, Except.bind, pure, Except.pure, eq_comm]
  cases p with
  | clock => exact hhand
  | scanline => exact hhand
  | acknowledge => exact @hhand (.ok m.cartridge.board.acknowledge)

/-- An access gives the same answer on both sides of a pulse, and the two leave the same machine in
either order. -/
theorem step_comm {a : Access} {p : Pulse} (haccess : m.step a.event = .ok (after, answer))
    (hpulse : m.step p.event = .ok (next, .done)) :
    ∃ last, next.step a.event = .ok (last, answer) ∧ after.step p.event = .ok (last, .done) := by
  obtain ⟨board, hboard, rfl, _⟩ := step_pulse_iff.mp hpulse
  cases a with
  | read addr =>
    obtain ⟨value, hread, heq⟩ := Fault.bind_eq_ok_iff.mp haccess
    cases heq
    rw [← Cartridge.read_of_still (Board.pulse_still hboard) addr] at hread
    exact ⟨_, Fault.bind_eq_ok_iff.mpr ⟨value, hread, rfl⟩, hpulse⟩
  | writeVideo addr value =>
    obtain ⟨video, hwrite, heq⟩ := Fault.bind_eq_ok_iff.mp haccess
    cases heq
    refine ⟨{ m with cartridge := { m.cartridge with board }, video }, ?_, ?_⟩
    · exact Fault.bind_eq_ok_iff.mpr ⟨video, hwrite, rfl⟩
    · exact step_pulse_iff.mpr ⟨board, hboard, rfl, rfl⟩
  | readVideo addr =>
    obtain ⟨⟨value, c⟩, hread, heq⟩ := Fault.bind_eq_ok_iff.mp haccess
    cases heq
    obtain ⟨hfetch, banks, hbanks, rfl⟩ := Cartridge.readVideo_eq_ok_iff.mp hread
    obtain ⟨hselects, hlater⟩ := Board.afterRead_pulse hboard (Cartridge.videoAddress addr)
    rw [← hselects] at hbanks
    refine ⟨{ m with cartridge := { m.cartridge with
      banks, board := (board.afterRead (Cartridge.videoAddress addr)).registers } }, ?_, ?_⟩
    · have hlast := Cartridge.readVideo_eq_ok_iff (c := { m.cartridge with board }).mpr
        ⟨hfetch, banks, hbanks, rfl⟩
      exact Fault.bind_eq_ok_iff.mpr ⟨_, hlast, rfl⟩
    · exact step_pulse_iff.mpr ⟨_, hlater, rfl, rfl⟩

end Machine

/-! ## Runs -/

def Answer.byte? : Answer → Option UInt8
  | byte value => some value
  | _ => none

/-- The bytes that were read in a run, first to last. -/
def Observation.bytes (seen : List Observation) : List UInt8 := seen.filterMap (·.answer.byte?)

theorem Machine.bytes_observe (m : Machine) (answer : Answer) (later : List Observation) :
    Observation.bytes (m.observe answer :: later) =
      answer.byte?.toList ++ Observation.bytes later := by
  cases answer <;> rfl

namespace Machine

variable {m next after last : Machine} {seen ticks : List Observation} {accesses : List Access}
  {pulses : List Pulse} {events : List Event}

/-- By induction on the accesses, a pulse can be put off until they are over. -/
theorem run_comm {p : Pulse} (hpulse : m.step p.event = .ok (next, .done))
    (hrun : m.run ((accesses.map Access.event).map .event) = .ok (after, seen)) :
    ∃ last seen', next.run ((accesses.map Access.event).map .event) = .ok (last, seen') ∧
      after.step p.event = .ok (last, .done) ∧
      Observation.bytes seen' = Observation.bytes seen := by
  induction accesses generalizing m next seen with
  | nil =>
    cases hrun
    exact ⟨next, [], rfl, hpulse, rfl⟩
  | cons a rest ih =>
    obtain ⟨first, answer, later, hfirst, hrest, rfl⟩ := run_cons_iff.mp hrun
    obtain ⟨next', hnext', hpulse'⟩ := step_comm hfirst hpulse
    obtain ⟨last, seen', hlast, hafter, hbytes⟩ := ih hpulse' hrest
    refine ⟨last, next'.observe answer :: seen', ?_, hafter, ?_⟩
    · exact run_cons_iff.mpr ⟨next', answer, seen', hnext', hlast, rfl⟩
    · rw [bytes_observe, bytes_observe, hbytes]

/-- Whatever the order, the outcome is that of all accesses first and all pulses after them. -/
theorem run_interleaved (h : Interleaves accesses pulses events) (hm : m.cartridge.WellFormed d)
    (haccesses : m.run ((accesses.map Access.event).map .event) = .ok (after, seen))
    (hpulses : after.run ((pulses.map Pulse.event).map .event) = .ok (last, ticks)) :
    ∃ seen', m.run (events.map .event) = .ok (last, seen') ∧
      Observation.bytes seen' = Observation.bytes seen := by
  induction h generalizing m after seen ticks with
  | nil =>
    cases haccesses
    cases hpulses
    exact ⟨[], rfl, rfl⟩
  | @access a accesses pulses events _ ih =>
    obtain ⟨first, answer, later, hfirst, hrest, rfl⟩ := run_cons_iff.mp haccesses
    obtain ⟨seen', hrun, hbytes⟩ := ih (step_wellFormed hm hfirst) hrest hpulses
    refine ⟨first.observe answer :: seen', ?_, ?_⟩
    · exact run_cons_iff.mpr ⟨first, answer, seen', hfirst, hrun, rfl⟩
    · rw [bytes_observe, bytes_observe, hbytes]
  | @pulse p accesses pulses events _ ih =>
    obtain ⟨middle, answer, later, hmiddle, hrest, rfl⟩ := run_cons_iff.mp hpulses
    obtain ⟨board, hboard⟩ := Board.exists_pulse hm.board p
    have hfirst := step_pulse_iff.mpr ⟨board, hboard, rfl, rfl⟩
    obtain ⟨middle', seen', hrun, hmiddle', hbytes⟩ := run_comm hfirst haccesses
    have hsame : Except.ok (middle', .done) = .ok (middle, answer) := hmiddle'.symm.trans hmiddle
    cases hsame
    obtain ⟨seen'', hrun', hbytes'⟩ := ih (step_wellFormed hm hfirst) hrun hrest
    refine ⟨_, run_cons_iff.mpr ⟨_, _, seen'', hfirst, hrun', rfl⟩, ?_⟩
    rw [bytes_observe, hbytes', hbytes]
    rfl

end Machine

/-- All that a read of the picture unit can change are the latches of the MMC2 and the banks that
the pattern pages show. -/
theorem Cartridge.readVideo_spares {c next : Cartridge} {video : VideoMemory} {addr : UInt16}
    {value : UInt8} (h : c.readVideo video addr = .ok (value, next)) :
    ∃ board pages,
      next = { c with board, banks := { c.banks with chr := { c.banks.chr with pages } } } ∧
      board.unlatched = c.board.unlatched ∧
      (c.board.kind ≠ .mmc2 → board = c.board ∧ pages = c.banks.chr.pages) := by
  obtain ⟨_, banks, hbanks, rfl⟩ := readVideo_eq_ok_iff.mp h
  obtain ⟨pages, rfl⟩ := Banks.applyAll_chr (fun s hs => Board.chr_of_mem_afterRead hs) hbanks
  refine ⟨_, pages, rfl, c.board.afterRead_unlatched _, ?_⟩
  intro hkind
  rw [Board.afterRead_of_ne hkind] at hbanks ⊢
  have hsame : c.banks = { c.banks with chr := { c.banks.chr with pages } } :=
    Except.ok.inj hbanks
  exact ⟨rfl, (congrArg (fun b => b.chr.pages) hsame).symm⟩

/-- Time does not disturb the memory map. A pulse changes nothing but a timer's count, prescaler and
line and the reload flag of the MMC3, and a read of the picture unit nothing but the latches of the
MMC2 and its pattern pages. So every interleaving of accesses with pulses reads the same bytes and
leaves the same cartridge and the same video memory. -/
theorem time_spares_memory_map {c : Cartridge} (hc : c.Driven d) {video : VideoMemory}
    (hvideo : video.Fits d) :
    (∀ p : Pulse, ∃ board, Machine.step { cartridge := c, video } p.event =
        .ok ({ cartridge := { c with board }, video }, .done) ∧ board.still = c.board.still) ∧
    (∀ addr, ∃ value board pages, Machine.step { cartridge := c, video } (.readVideo addr) =
        .ok ({
          cartridge := { c with board, banks := { c.banks with chr := { c.banks.chr with pages } } }
          video }, .byte value) ∧
        board.unlatched = c.board.unlatched ∧
        (c.board.kind ≠ .mmc2 → board = c.board ∧ pages = c.banks.chr.pages)) ∧
    ∀ accesses pulses, ∃ last bytes, ∀ events, Interleaves accesses pulses events →
      ∃ seen, Machine.run { cartridge := c, video } (events.map .event) = .ok (last, seen) ∧
        Observation.bytes seen = bytes := by
  have hcart := hc.wellFormed
  refine ⟨?_, ?_, ?_⟩
  · intro p
    obtain ⟨board, hboard⟩ := Board.exists_pulse hcart.board p
    exact ⟨board, Machine.step_pulse_iff.mpr ⟨board, hboard, rfl, rfl⟩, Board.pulse_still hboard⟩
  · intro addr
    obtain ⟨value, next, hread⟩ := hcart.exists_readVideo hvideo addr
    obtain ⟨board, pages, rfl, hspares⟩ := Cartridge.readVideo_spares hread
    exact ⟨value, board, pages, Fault.bind_eq_ok_iff.mpr ⟨_, hread, rfl⟩, hspares⟩
  · intro accesses pulses
    obtain ⟨after, seen, haccesses, hafter⟩ := Machine.exists_run
      (m := { cartridge := c, video }) ⟨hcart, hvideo⟩ ((accesses.map Access.event).map .event)
    obtain ⟨last, ticks, hpulses, _⟩ :=
      Machine.exists_run hafter ((pulses.map Pulse.event).map .event)
    refine ⟨last, Observation.bytes seen, ?_⟩
    intro events h
    exact Machine.run_interleaved h hcart haccesses hpulses

/-- The scanline counter fires between a write to a nametable and the reads, or after them. -/
theorem time_spares_memory_map_tlrom :
    ∃ c notes, Cartridge.load .tlrom (.zeroed 0x8000) #[] = .ok { value := .ok c, notes } ∧
      ∃ c', c.writeAll [(0xE001, 0)] = .ok c' ∧ ∃ last seen seen',
        Machine.run { cartridge := c', video := .cleared .tlrom }
          [.event (.writeVideo 0x2005 7), .event .scanline, .event .clock,
            .event (.readVideo 0x2405), .event (.read 0xFFFC)] = .ok (last, seen) ∧
        Machine.run { cartridge := c', video := .cleared .tlrom }
          [.event (.writeVideo 0x2005 7), .event (.readVideo 0x2405), .event (.read 0xFFFC),
            .event .scanline, .event .clock] = .ok (last, seen') ∧
        Observation.bytes seen = Observation.bytes seen' := by
  obtain ⟨c, notes, hload, _⟩ := Descriptor.tlrom_load
  obtain ⟨c', hwritten, hreachable, _⟩ := Cartridge.Reachable.exists_writeAll (.load hload)
    [(0xE001, 0)]
  have hfits : (VideoMemory.cleared .tlrom).Fits .tlrom := ⟨rfl, rfl⟩
  obtain ⟨last, bytes, hruns⟩ := (time_spares_memory_map hreachable.driven hfits).2.2
    [.writeVideo 0x2005 7, .readVideo 0x2405, .read 0xFFFC] [.scanline, .clock]
  obtain ⟨seen, hrun, hbytes⟩ := hruns _ (.access (.pulse (.pulse (.access (.access .nil)))))
  obtain ⟨seen', hrun', hbytes'⟩ := hruns _ (.access (.access (.access (.pulse (.pulse .nil)))))
  exact ⟨c, notes, hload, c', hwritten, last, seen, seen', hrun, hrun', hbytes.trans hbytes'.symm⟩

end GamePak
