import GamePak.Proofs.WellFormed

/-!
Safety: no run of a loaded cartridge meets a fault. A command succeeds on every well-formed machine
and leaves one, so runs of any length do, and in the machine that a run leaves every address
reaches a byte that is there. The one fault of loading is a work RAM that no memory can hold.
-/

namespace GamePak

variable {d : Descriptor}

namespace Machine

variable {m next : Machine} {answer : Answer}

structure WellFormed (d : Descriptor) (m : Machine) : Prop where
  cartridge : m.cartridge.WellFormed d
  video : m.video.Fits d

/-! ## One command -/

theorem exists_step (hm : m.WellFormed d) (e : Event) :
    ∃ next answer, m.step e = .ok (next, answer) ∧ next.WellFormed d := by
  obtain ⟨hcart, hvideo⟩ := hm
  cases e with
  | write addr value =>
    obtain ⟨written, hwritten, hkept⟩ := hcart.exists_write addr value
    exact ⟨_, _, Fault.bind_eq_ok_iff.mpr ⟨written, hwritten, rfl⟩, hkept, hvideo⟩
  | read addr =>
    obtain ⟨value, hvalue⟩ := hcart.exists_read addr
    exact ⟨_, _, Fault.bind_eq_ok_iff.mpr ⟨value, hvalue, rfl⟩, hcart, hvideo⟩
  | writeVideo addr value =>
    obtain ⟨video, hwritten, hfits⟩ := hcart.exists_writeVideo hvideo addr value
    exact ⟨_, _, Fault.bind_eq_ok_iff.mpr ⟨video, hwritten, rfl⟩, hcart, hfits⟩
  | readVideo addr =>
    obtain ⟨value, c, hread⟩ := hcart.exists_readVideo hvideo addr
    exact ⟨_, _, Fault.bind_eq_ok_iff.mpr ⟨(value, c), hread, rfl⟩, hcart.readVideo hread, hvideo⟩
  | clock =>
    obtain ⟨c, hclock, hkept⟩ := hcart.exists_clock
    exact ⟨_, _, Fault.bind_eq_ok_iff.mpr ⟨c, hclock, rfl⟩, hkept, hvideo⟩
  | scanline =>
    obtain ⟨c, hscanline, hkept⟩ := hcart.exists_scanline
    exact ⟨_, _, Fault.bind_eq_ok_iff.mpr ⟨c, hscanline, rfl⟩, hkept, hvideo⟩
  | acknowledge => exact ⟨_, _, rfl, hcart.acknowledge, hvideo⟩

/-- A cartridge stays well formed whatever video memory it is lent. -/
theorem step_wellFormed (hm : m.cartridge.WellFormed d) {e : Event}
    (h : m.step e = .ok (next, answer)) : next.cartridge.WellFormed d := by
  cases e with
  | write addr value =>
    obtain ⟨written, hwritten, heq⟩ := Fault.bind_eq_ok_iff.mp h
    cases heq
    exact Fault.of_exists_ok (P := fun written => written.value.WellFormed d)
      (hm.exists_write addr value) hwritten
  | read addr =>
    obtain ⟨value, _, heq⟩ := Fault.bind_eq_ok_iff.mp h
    cases heq
    exact hm
  | writeVideo addr value =>
    obtain ⟨video, _, heq⟩ := Fault.bind_eq_ok_iff.mp h
    cases heq
    exact hm
  | readVideo addr =>
    obtain ⟨⟨value, c⟩, hread, heq⟩ := Fault.bind_eq_ok_iff.mp h
    cases heq
    exact hm.readVideo hread
  | clock =>
    obtain ⟨c, hclock, heq⟩ := Fault.bind_eq_ok_iff.mp h
    cases heq
    exact Fault.of_exists_ok hm.exists_clock hclock
  | scanline =>
    obtain ⟨c, hscanline, heq⟩ := Fault.bind_eq_ok_iff.mp h
    cases heq
    exact Fault.of_exists_ok hm.exists_scanline hscanline
  | acknowledge =>
    cases h
    exact hm.acknowledge

theorem perform_wellFormed (hm : m.cartridge.WellFormed d) {command : Command}
    (h : m.perform command = .ok (next, answer)) : next.cartridge.WellFormed d := by
  cases command with
  | event e => exact step_wellFormed hm h
  | loadSave data =>
    unfold perform at h
    simp only at h
    split at h
    · rename_i c hload
      cases h
      exact hm.loadSaveRam hload
    · cases h
      exact hm
  | restore s =>
    obtain ⟨⟨value, notes⟩, hrestore, h⟩ := Fault.bind_eq_ok_iff.mp h
    cases value with
    | ok c =>
      cases h
      exact hm.restore hrestore
    | error e =>
      cases h
      exact hm

theorem exists_perform (hm : m.WellFormed d) (command : Command) :
    ∃ next answer, m.perform command = .ok (next, answer) ∧ next.WellFormed d := by
  cases command with
  | event e => exact exists_step hm e
  | loadSave data =>
    unfold perform
    simp only
    split
    · rename_i c hload
      exact ⟨_, _, rfl, hm.cartridge.loadSaveRam hload, hm.video⟩
    · exact ⟨_, _, rfl, hm⟩
  | restore s =>
    obtain ⟨⟨value, notes⟩, hrestore⟩ := hm.cartridge.exists_restore s
    unfold perform
    simp only [hrestore, bind, Except.bind]
    cases value with
    | ok c => exact ⟨_, _, rfl, hm.cartridge.restore hrestore, hm.video⟩
    | error e => exact ⟨_, _, rfl, hm⟩

/-! ## Runs -/

theorem exists_run (hm : m.WellFormed d) (commands : List Command) :
    ∃ last seen, m.run commands = .ok (last, seen) ∧ last.WellFormed d := by
  induction commands generalizing m with
  | nil => exact ⟨m, [], rfl, hm⟩
  | cons command rest ih =>
    obtain ⟨next, answer, hperform, hnext⟩ := exists_perform hm command
    obtain ⟨last, seen, hrun, hlast⟩ := ih hnext
    refine ⟨last, next.observe answer :: seen, ?_, hlast⟩
    exact run_cons_iff.mpr ⟨next, answer, seen, hperform, hrun, rfl⟩

end Machine

namespace Cartridge

variable {c : Cartridge}

theorem Driven.wellFormed (h : Driven d c) : c.WellFormed d := by
  induction h with
  | load h => exact load_wellFormed h
  | perform _ h ih => exact Machine.perform_wellFormed ih h

theorem Reachable.wellFormed (h : Reachable d c) : c.WellFormed d := by
  induction h with
  | load h => exact load_wellFormed h
  | step _ h ih => exact Machine.step_wellFormed ih h
  | loadSave _ h ih => exact ih.loadSaveRam h
  | restore _ _ h ih _ => exact ih.restore h

/-! ## Loading -/

theorem exists_findBoard (hd : d.Valid) (prg chr : Memory) :
    ∃ found, findBoard d prg chr = .ok found := by
  obtain ⟨⟨value, found⟩, hfound⟩ := Registry.exists_configureFrom hd Registry.kinds
  unfold findBoard Registry.configure
  rw [show d.flaw? = none from hd]
  simp only
  split
  · exact ⟨_, rfl⟩
  · split
    · exact ⟨_, rfl⟩
    · rw [hfound]
      cases value with
      | none => exact ⟨_, rfl⟩
      | some pair => exact ⟨_, rfl⟩

theorem exists_load (hd : d.Valid) (hwram : d.wramSize < memoryLimit) (prg chr : Memory) :
    ∃ loaded, load d prg chr = .ok loaded := by
  obtain ⟨⟨value, notes⟩, hfind⟩ := exists_findBoard hd prg chr
  cases value with
  | error e => exact ⟨_, Fault.bind_eq_ok_iff.mpr ⟨_, hfind, rfl⟩⟩
  | ok pair =>
    have hallocate := Memory.allocate_eq_ok_iff.mpr ⟨hwram, rfl⟩
    exact ⟨_, Fault.bind_eq_ok_iff.mpr
      ⟨_, hfind, Fault.bind_eq_ok_iff.mpr ⟨_, hallocate, rfl⟩⟩⟩

/-- The cartridge comes with the board that the registry has found. -/
theorem load_of_configure (hd : d.Valid) {board : Board} {prg chr : Memory}
    (hprg : prg.size = d.prgSize) (hchr : chr.size = d.chrSize) (hwram : d.wramSize < memoryLimit)
    (hfound : ∃ banks found,
      Registry.configure d = .ok { value := some (board, banks), notes := found }) :
    ∃ c notes, load d prg chr = .ok { value := .ok c, notes } ∧ c.board = board := by
  obtain ⟨banks, found, hfound⟩ := hfound
  have hload := load_eq_ok_iff
    (c := { descriptor := d, prg, chr, wram := .zeroed d.wramSize, banks, board }).mpr
    ⟨hd, hprg, hchr, hwram, found, hfound, rfl, rfl⟩
  exact ⟨_, _, hload, rfl⟩

end Cartridge

/-! ## Runs of writes -/

/-- The cartridge after CPU writes, first to last. -/
def Cartridge.writeAll (c : Cartridge) (writes : List (UInt16 × UInt8)) :
    Except Fault Cartridge :=
  writes.foldlM (fun c w => do return (← c.write w.1 w.2).value) c

/-- The registers after writes, first to last; what they select is not looked at. -/
def Board.writeAll (b : Board) (writes : List (UInt16 × UInt8)) : Except Fault Board :=
  writes.foldlM (fun b w => do return (← b.write w.1 w.2).registers) b

namespace Cartridge.Reachable

variable {c : Cartridge}

theorem exists_write (hc : c.Reachable d) (addr : UInt16) (value : UInt8) :
    ∃ written reply, c.write addr value = .ok written ∧ written.value.Reachable d ∧
      c.board.write addr value = .ok reply ∧
      c.banks.applyAll reply.selects = .ok written.value.banks ∧
      written.value.board = reply.registers ∧ written.value.prg = c.prg := by
  obtain ⟨written, hwritten, _⟩ := hc.wellFormed.exists_write addr value
  obtain ⟨reply, wram, banks, hreply, hbanks, heq⟩ := write_eq_ok hwritten
  have hstep : Machine.step { cartridge := c, video := .cleared d } (.write addr value) =
      .ok ({ cartridge := written.value, video := .cleared d }, .done) :=
    Fault.bind_eq_ok_iff.mpr ⟨written, hwritten, rfl⟩
  have hreachable : written.value.Reachable d := .step hc hstep
  refine ⟨written, reply, hwritten, hreachable, hreply, ?_⟩
  rw [heq]
  exact ⟨hbanks, rfl, rfl⟩

theorem exists_writeAll (hc : c.Reachable d) (writes : List (UInt16 × UInt8)) :
    ∃ c', c.writeAll writes = .ok c' ∧ c'.Reachable d ∧
      c.board.writeAll writes = .ok c'.board ∧ c'.prg = c.prg := by
  induction writes generalizing c with
  | nil => exact ⟨c, rfl, hc, rfl, rfl⟩
  | cons w rest ih =>
    obtain ⟨written, reply, hwritten, hreachable, hreply, _, hboard, hprg⟩ :=
      hc.exists_write w.1 w.2
    obtain ⟨c', hrest, hlast, hboards, hprgs⟩ := ih hreachable
    rw [hboard] at hboards
    refine ⟨c', ?_, hlast, ?_, hprgs.trans hprg⟩
    · simp only [writeAll, List.foldlM_cons, hwritten]
      exact hrest
    · simp only [Board.writeAll, List.foldlM_cons, hreply]
      exact hboards

end Cartridge.Reachable

/-! ## No fault -/

/-- Every descriptor that passes its check can be configured without a fault, whichever boards turn
it down, and loaded if there can be a memory of its work RAM's size. A cartridge that was loaded
answers every run of commands, snapshots from elsewhere among them, and after each run all addresses
of both buses reach bytes that are there. -/
theorem run_meets_no_fault (hd : d.Valid) :
    (∀ kinds, ∃ found, Registry.configureFrom d kinds = .ok found) ∧
    (d.wramSize < memoryLimit → ∀ prg chr, ∃ loaded, Cartridge.load d prg chr = .ok loaded) ∧
    ∀ prg chr c notes, Cartridge.load d prg chr = .ok { value := .ok c, notes } →
      ∀ video : VideoMemory, video.Fits d → ∀ commands,
        ∃ m seen, Machine.run { cartridge := c, video } commands = .ok (m, seen) ∧
          (∀ addr, ∃ target, m.cartridge.board.mapPrg m.cartridge.banks addr = .ok target ∧
            target.InBounds m.cartridge) ∧
          ∀ addr < 0x4000, ∃ target, m.cartridge.banks.mapPpu addr = .ok target ∧
            target.InBounds m := by
  refine ⟨Registry.exists_configureFrom hd, Cartridge.exists_load hd, ?_⟩
  intro prg chr c notes hload video hvideo commands
  have hstart : Machine.WellFormed d { cartridge := c, video } :=
    ⟨Cartridge.load_wellFormed hload, hvideo⟩
  obtain ⟨m, seen, hrun, hm⟩ := Machine.exists_run hstart commands
  refine ⟨m, seen, hrun, ?_, ?_⟩
  · intro addr
    exact hm.cartridge.exists_mapPrg addr
  · intro addr haddr
    exact hm.cartridge.exists_mapPpu hm.video haddr

namespace Descriptor

/-- A cartridge with a single byte of pattern RAM and less work RAM than a page. -/
def smallFme7 : Descriptor where
  board := "MAPPER069"
  prgSize := 0x8000
  chrSize := 0
  chrRamSize := 1
  wramSize := 0x800

theorem smallFme7_valid : smallFme7.Valid := by decide

theorem smallFme7_load :
    ∃ c notes, Cartridge.load smallFme7 (.zeroed 0x8000) #[] = .ok { value := .ok c, notes } ∧
      c.board = .fme7 {} :=
  Cartridge.load_of_configure smallFme7_valid Array.size_replicate rfl (by decide) ⟨_, _, rfl⟩

/-- Four program pages, eight pattern pages and the scanline counter. -/
def tlrom : Descriptor := .named "NES-TLROM" 0x8000 0

theorem tlrom_load :
    ∃ c notes, Cartridge.load tlrom (.zeroed 0x8000) #[] = .ok { value := .ok c, notes } ∧
      c.board = .mmc3 { fixedMirroring := false } :=
  Cartridge.load_of_configure (by decide) Array.size_replicate rfl (by decide) ⟨_, _, rfl⟩

end Descriptor

/-- Images of the wrong size are turned down. In the run, work RAM is selected and written through a
mirror, and a snapshot with pages far out of range is handed in. -/
theorem run_meets_no_fault_smallFme7 :
    Descriptor.smallFme7.Valid ∧ Descriptor.smallFme7.wramSize < memoryLimit ∧
    (∃ loaded, Cartridge.load .smallFme7 #[] #[] = .ok loaded) ∧
    ∃ c notes,
      Cartridge.load .smallFme7 (.zeroed 0x8000) #[] = .ok { value := .ok c, notes } ∧
      ∃ m seen,
        Machine.run { cartridge := c, video := .cleared .smallFme7 }
          [.event (.write 0x8000 8), .event (.write 0xA000 0xFF), .event (.write 0x7FFF 5),
            .event (.readVideo 0x1FFF), .event .clock,
            .restore { c.snapshot with prgPages := [4, 99, 5000, 0, 1 <<< 63] },
            .event (.read 0xFFFF)] = .ok (m, seen) := by
  obtain ⟨c, notes, hload, _⟩ := Descriptor.smallFme7_load
  obtain ⟨_, hloads, hruns⟩ := run_meets_no_fault Descriptor.smallFme7_valid
  obtain ⟨m, seen, hrun, _⟩ := hruns _ _ c notes hload (.cleared .smallFme7) ⟨rfl, rfl⟩ _
  exact ⟨Descriptor.smallFme7_valid, by decide, hloads (by decide) #[] #[], c, notes, hload, m,
    seen, hrun⟩

end GamePak
