import GamePak.Proofs.Persistence

/-!
Control and contents. What an event makes of registers and banks is decided by the event and by
these two; no byte of a memory has a say in it, not even where a read or a write passes one on. So
two cartridges of one descriptor that run through the same events stay alike in all but their
memories, whatever these hold.
-/

namespace GamePak

variable {d : Descriptor}

/-- Registers and banks before an event, and the event, leave one choice for those after it. -/
theorem Event.Effect.unique {e : Event} {board board₁ board₂ : Board} {banks banks₁ banks₂ : Banks}
    (h₁ : e.Effect board banks board₁ banks₁) (h₂ : e.Effect board banks board₂ banks₂) :
    board₁ = board₂ ∧ banks₁ = banks₂ := by
  cases e with
  | write addr value =>
    obtain ⟨reply, hreply, hbanks, rfl⟩ := h₁
    obtain ⟨reply', hreply', hbanks', rfl⟩ := h₂
    obtain rfl := Except.ok.inj (hreply.symm.trans hreply')
    exact ⟨rfl, Except.ok.inj (hbanks.symm.trans hbanks')⟩
  | readVideo addr =>
    exact ⟨h₁.2.trans h₂.2.symm, Except.ok.inj (h₁.1.symm.trans h₂.1)⟩
  | clock => exact ⟨Except.ok.inj (h₁.1.symm.trans h₂.1), h₁.2.trans h₂.2.symm⟩
  | scanline => exact ⟨Except.ok.inj (h₁.1.symm.trans h₂.1), h₁.2.trans h₂.2.symm⟩
  | acknowledge => exact ⟨h₁.1.trans h₂.1.symm, h₁.2.trans h₂.2.symm⟩
  | read addr => exact ⟨h₁.1.trans h₂.1.symm, h₁.2.trans h₂.2.symm⟩
  | writeVideo addr value => exact ⟨h₁.1.trans h₂.1.symm, h₁.2.trans h₂.2.symm⟩

/-- The cartridges have the same registers, a timer among them, and the same banks. -/
structure Cartridge.Alike (c c' : Cartridge) : Prop where
  board : c.board = c'.board
  banks : c.banks = c'.banks

namespace Machine

variable {m m' last last' : Machine} {seen seen' : List Observation}

theorem step_alike {next next' : Machine} {e : Event} {answer answer' : Answer}
    (h : m.step e = .ok (next, answer)) (h' : m'.step e = .ok (next', answer'))
    (halike : m.cartridge.Alike m'.cartridge) : next.cartridge.Alike next'.cartridge := by
  have heffect := step_effect h
  rw [halike.board, halike.banks] at heffect
  obtain ⟨hboard, hbanks⟩ := heffect.unique (step_effect h')
  exact ⟨hboard, hbanks⟩

theorem run_alike {events : List Event} (h : m.run (events.map .event) = .ok (last, seen))
    (h' : m'.run (events.map .event) = .ok (last', seen'))
    (halike : m.cartridge.Alike m'.cartridge) : last.cartridge.Alike last'.cartridge := by
  induction events generalizing m m' seen seen' with
  | nil =>
    cases h
    cases h'
    exact halike
  | cons e rest ih =>
    obtain ⟨next, answer, later, hstep, hrest, _⟩ := run_cons_iff.mp h
    obtain ⟨next', answer', later', hstep', hrest', _⟩ := run_cons_iff.mp h'
    exact ih hrest hrest' (step_alike hstep hstep' halike)

end Machine

namespace Cartridge

theorem WellFormed.withWram {c : Cartridge} (h : c.WellFormed d) {wram : Memory}
    (hsize : wram.size = d.wramSize) : { c with wram }.WellFormed d :=
  h.update rfl h.board h.banks (hsize.trans h.wram_size.symm)

/-- Of the images only the sizes matter to loading. -/
theorem load_of_sizes {prg chr prg' chr' : Memory} {c : Cartridge} {notes : List Note}
    (h : load d prg chr = .ok { value := .ok c, notes }) (hprg : prg'.size = prg.size)
    (hchr : chr'.size = chr.size) :
    load d prg' chr' = .ok { value := .ok { c with prg := prg', chr := chr' }, notes } := by
  obtain ⟨hvalid, hprg₀, hchr₀, hwram, found, hfound, hnotes, heq⟩ := load_eq_ok_iff.mp h
  refine load_eq_ok_iff.mpr ⟨hvalid, hprg.trans hprg₀, hchr.trans hchr₀, hwram, found, hfound,
    hnotes, ?_⟩
  rw [heq]

end Cartridge

/-- No data byte flows into the control of a cartridge. One descriptor with other images of the same
sizes loads as well; and with whatever in work RAM and video memory, the two cartridges have, after
each of the same events, the same registers and timer, banks, arrangement and interrupt line, and
all addresses reach the same places. -/
theorem control_ignores_contents {prg chr prg' chr' : Memory} {c : Cartridge} {notes : List Note}
    (hload : Cartridge.load d prg chr = .ok { value := .ok c, notes })
    (hprg : prg'.size = prg.size) (hchr : chr'.size = chr.size) :
    ∃ c', Cartridge.load d prg' chr' = .ok { value := .ok c', notes } ∧
      ∀ wram wram' : Memory, wram.size = d.wramSize → wram'.size = d.wramSize →
      ∀ video video' : VideoMemory, video.Fits d → video'.Fits d →
      ∀ (events : List Event) (n : Nat), ∃ m seen m' seen',
        Machine.run { cartridge := { c with wram }, video } ((events.take n).map .event) =
          .ok (m, seen) ∧
        Machine.run { cartridge := { c' with wram := wram' }, video := video' }
          ((events.take n).map .event) = .ok (m', seen') ∧
        m.cartridge.board = m'.cartridge.board ∧
        m.cartridge.board.timer? = m'.cartridge.board.timer? ∧
        m.cartridge.banks = m'.cartridge.banks ∧
        m.cartridge.mirroring = m'.cartridge.mirroring ∧
        m.cartridge.irqPending = m'.cartridge.irqPending ∧
        (∀ addr, m.cartridge.board.mapPrg m.cartridge.banks addr =
          m'.cartridge.board.mapPrg m'.cartridge.banks addr) ∧
        ∀ addr, m.cartridge.banks.mapPpu addr = m'.cartridge.banks.mapPpu addr := by
  have hload' := Cartridge.load_of_sizes hload hprg hchr
  refine ⟨_, hload', ?_⟩
  intro wram wram' hsize hsize' video video' hvideo hvideo' events n
  have hstart := (Cartridge.load_wellFormed hload).withWram hsize
  have hstart' := (Cartridge.load_wellFormed hload').withWram hsize'
  obtain ⟨m, seen, hrun, _⟩ := Machine.exists_run (m := { cartridge := { c with wram }, video })
    ⟨hstart, hvideo⟩ ((events.take n).map .event)
  obtain ⟨m', seen', hrun', _⟩ := Machine.exists_run
    (m := { cartridge := { c with prg := prg', chr := chr', wram := wram' }, video := video' })
    ⟨hstart', hvideo'⟩ ((events.take n).map .event)
  obtain ⟨hboard, hbanks⟩ := Machine.run_alike hrun hrun' ⟨rfl, rfl⟩
  refine ⟨m, seen, m', seen', hrun, hrun', hboard, ?_, hbanks, ?_, ?_, ?_, ?_⟩
  · rw [hboard]
  · rw [Cartridge.mirroring, hbanks, Cartridge.mirroring]
  · rw [Cartridge.irqPending, hboard, Cartridge.irqPending]
  · intro addr
    rw [hboard, hbanks]
  · intro addr
    rw [hbanks]

/-- Cleared memories on one side and full ones on the other, with a byte written to work RAM, one
read as a tile and the timer running. -/
theorem control_ignores_contents_smallFme7 :
    ∃ c c' notes, Cartridge.load .smallFme7 (.zeroed 0x8000) #[] = .ok { value := .ok c, notes } ∧
      Cartridge.load .smallFme7 (Array.replicate 0x8000 0xFF) #[] =
        .ok { value := .ok c', notes } ∧
      ∃ m seen m' seen',
        Machine.run { cartridge := { c with wram := .zeroed 0x800 }, video := .cleared .smallFme7 }
          [.event (.write 0x8000 8), .event (.write 0xA000 0xFF), .event (.write 0x7FFF 5),
            .event (.write 0x8000 13), .event (.write 0xA000 0x81), .event .clock,
            .event (.readVideo 0x1FFF)] = .ok (m, seen) ∧
        Machine.run {
            cartridge := { c' with wram := Array.replicate 0x800 0xFF }
            video := {
              patterns := Array.replicate 1 0xFF
              nametables := Array.replicate 0x1000 0xFF } }
          [.event (.write 0x8000 8), .event (.write 0xA000 0xFF), .event (.write 0x7FFF 5),
            .event (.write 0x8000 13), .event (.write 0xA000 0x81), .event .clock,
            .event (.readVideo 0x1FFF)] = .ok (m', seen') ∧
        m.cartridge.board = m'.cartridge.board ∧ m.cartridge.banks = m'.cartridge.banks := by
  obtain ⟨c, notes, hload, _⟩ := Descriptor.smallFme7_load
  obtain ⟨c', hload', hruns⟩ := control_ignores_contents hload
    (show (Array.replicate 0x8000 (0xFF : UInt8)).size = (Memory.zeroed 0x8000).size by
      simp [Memory.zeroed]) (show (#[] : Memory).size = (#[] : Memory).size from rfl)
  obtain ⟨m, seen, m', seen', hrun, hrun', hboard, _, hbanks, _⟩ := hruns (.zeroed 0x800)
    (Array.replicate 0x800 0xFF) Array.size_replicate Array.size_replicate (.cleared .smallFme7)
    { patterns := Array.replicate 1 0xFF, nametables := Array.replicate 0x1000 0xFF } ⟨rfl, rfl⟩
    ⟨by simp [VideoMemory.cleared, Memory.zeroed, Descriptor.smallFme7, Descriptor.usesChrRam],
      by simp [VideoMemory.cleared, Memory.zeroed]⟩
    [.write 0x8000 8, .write 0xA000 0xFF, .write 0x7FFF 5, .write 0x8000 13, .write 0xA000 0x81,
      .clock, .readVideo 0x1FFF] 7
  exact ⟨c, c', notes, hload, hload', m, seen, m', seen', hrun, hrun', hboard, hbanks⟩

end GamePak
