import GamePak.Proofs.Machine
import GamePak.Proofs.Restore

/-!
Well-formed cartridges. One invariant carries the whole development: the memories have the sizes of
a checked descriptor, the board is of the kind that the registry chooses, its registers are in
range, and the banks are cut to its layout. Loading establishes it, every command keeps it, a
restore of whatever snapshot included, and a machine in which it holds meets no fault.
-/

namespace GamePak

namespace Memory

theorem allocate_eq_ok_iff {size : Nat} {m : Memory} :
    allocate size = .ok m ↔ size < memoryLimit ∧ m = .zeroed size := by
  constructor
  · intro h
    unfold allocate at h
    split at h
    · cases h
    · rename_i hsize
      exact ⟨Nat.not_le.mp hsize, (Except.ok.inj h).symm⟩
  · rintro ⟨hsize, rfl⟩
    exact if_neg (Nat.not_le.mpr hsize)

theorem exists_load {m : Memory} {offset : Nat} (h : offset < m.size) :
    ∃ value, m.load offset = .ok value := by
  unfold load
  rw [Array.getElem?_eq_getElem h]
  exact ⟨_, rfl⟩

theorem exists_store {m : Memory} {offset : Nat} (h : offset < m.size) (value : UInt8) :
    ∃ m', m.store offset value = .ok m' ∧ m'.size = m.size := by
  unfold store
  rw [dif_pos h]
  exact ⟨_, rfl, Array.size_set h⟩

end Memory

/-- Video memory of the sizes that the cartridge needs. -/
structure VideoMemory.Fits (d : Descriptor) (video : VideoMemory) : Prop where
  patterns : video.patterns.size = (VideoMemory.cleared d).patterns.size
  nametables : video.nametables.size = (VideoMemory.cleared d).nametables.size

theorem VideoMemory.Fits.size_patterns {d : Descriptor} {video : VideoMemory}
    (h : video.Fits d) (hram : d.usesChrRam = true) : video.patterns.size = d.chrRamSize := by
  rw [h.patterns]
  simp only [cleared, hram, if_true]
  exact Array.size_replicate

theorem VideoMemory.Fits.size_nametables {d : Descriptor} {video : VideoMemory}
    (h : video.Fits d) : video.nametables.size = 4 * Window.nametableSize := by
  rw [h.nametables]
  exact Array.size_replicate

/-- The offset that an address of the CPU reaches is one of the memory that it lies in. -/
def PrgTarget.InBounds (c : Cartridge) : PrgTarget → Prop
  | rom offset => offset < c.prg.size
  | wram offset => offset < c.wram.size
  | lockedWram offset => offset < c.wram.size
  | register => True
  | openBus => True

/-- The offset that an address of the picture unit reaches is one of the memory that it lies in. -/
def PpuTarget.InBounds (m : Machine) : PpuTarget → Prop
  | pattern offset =>
    if m.cartridge.descriptor.usesChrRam then offset < m.video.patterns.size
    else offset < m.cartridge.chr.size
  | nametable offset => offset < m.video.nametables.size

namespace Cartridge

structure WellFormed (d : Descriptor) (c : Cartridge) : Prop where
  descriptor : c.descriptor = d
  valid : d.Valid
  prg_size : c.prg.size = d.prgSize
  chr_size : c.chr.size = d.chrSize
  wram_size : c.wram.size = d.wramSize
  chosen : c.board.kind.Chosen d
  board : c.board.Valid
  banks : c.banks.Fitted d c.board.kind.layout

theorem findBoard_eq_ok_iff {d : Descriptor} {prg chr : Memory} {board : Board} {banks : Banks}
    {notes : List Note} :
    findBoard d prg chr = .ok { value := .ok (board, banks), notes } ↔
      d.Valid ∧ prg.size = d.prgSize ∧ chr.size = d.chrSize ∧
        ∃ found, Registry.configure d = .ok { value := some (board, banks), notes := found } ∧
          notes = found ++ [.loaded d.board board.name (Registry.mapperName d.mapper?)] := by
  constructor
  · intro h
    unfold findBoard at h
    split at h
    · cases h
    · rename_i hvalid
      split at h
      · cases h
      · rename_i hprg
        split at h
        · cases h
        · rename_i hchr
          obtain ⟨⟨value, found⟩, hfound, h⟩ := Fault.bind_eq_ok_iff.mp h
          cases value with
          | none => cases h
          | some pair =>
            cases h
            exact ⟨hvalid, Decidable.not_not.mp hprg, Decidable.not_not.mp hchr, found, hfound,
              rfl⟩
  · rintro ⟨hvalid, hprg, hchr, found, hfound, rfl⟩
    unfold findBoard
    rw [show d.flaw? = none from hvalid]
    simp only [bind, Except.bind, hfound]
    rw [if_neg (not_not_intro hprg), if_neg (not_not_intro hchr)]
    rfl

/-- A cartridge that was loaded, taken apart and put together again. -/
theorem load_eq_ok_iff {d : Descriptor} {prg chr : Memory} {c : Cartridge} {notes : List Note} :
    load d prg chr = .ok { value := .ok c, notes } ↔
      d.Valid ∧ prg.size = d.prgSize ∧ chr.size = d.chrSize ∧ d.wramSize < memoryLimit ∧
        ∃ found, Registry.configure d = .ok { value := some (c.board, c.banks), notes := found } ∧
          notes = found ++ [.loaded d.board c.board.name (Registry.mapperName d.mapper?)] ∧
          c = { c with descriptor := d, prg, chr, wram := .zeroed d.wramSize } := by
  constructor
  · intro h
    obtain ⟨⟨value, notes⟩, hfind, h⟩ := Fault.bind_eq_ok_iff.mp h
    cases value with
    | error e => cases h
    | ok pair =>
      obtain ⟨wram, hwram, h⟩ := Fault.bind_eq_ok_iff.mp h
      obtain ⟨hsize, rfl⟩ := Memory.allocate_eq_ok_iff.mp hwram
      cases h
      obtain ⟨hvalid, hprg, hchr, found, hfound, rfl⟩ := findBoard_eq_ok_iff.mp hfind
      exact ⟨hvalid, hprg, hchr, hsize, found, hfound, rfl, rfl⟩
  · rintro ⟨hvalid, hprg, hchr, hsize, found, hfound, rfl, heq⟩
    have hfind := findBoard_eq_ok_iff.mpr ⟨hvalid, hprg, hchr, found, hfound, rfl⟩
    have hwram := Memory.allocate_eq_ok_iff.mpr ⟨hsize, rfl⟩
    refine Fault.bind_eq_ok_iff.mpr ⟨_, hfind, Fault.bind_eq_ok_iff.mpr ⟨_, hwram, ?_⟩⟩
    rw [heq]
    rfl

theorem load_eq_ok {d : Descriptor} {prg chr : Memory} {c : Cartridge} {notes : List Note}
    (h : load d prg chr = .ok { value := .ok c, notes }) :
    d.Valid ∧ prg.size = d.prgSize ∧ chr.size = d.chrSize ∧
      (∃ found, Registry.configure d = .ok { value := some (c.board, c.banks), notes := found }) ∧
      c = { c with descriptor := d, prg, chr, wram := .zeroed d.wramSize } := by
  obtain ⟨hvalid, hprg, hchr, _, found, hfound, _, heq⟩ := load_eq_ok_iff.mp h
  exact ⟨hvalid, hprg, hchr, ⟨found, hfound⟩, heq⟩

theorem load_wellFormed {d : Descriptor} {prg chr : Memory} {c : Cartridge} {notes : List Note}
    (h : load d prg chr = .ok { value := .ok c, notes }) : c.WellFormed d := by
  obtain ⟨hvalid, hprg, hchr, ⟨found, hfound⟩, heq⟩ := load_eq_ok h
  obtain ⟨hboard, hbanks⟩ := Registry.configure_fitted hfound
  rw [heq]
  exact {
    descriptor := rfl
    valid := hvalid
    prg_size := hprg
    chr_size := hchr
    wram_size := Array.size_replicate
    chosen := ⟨c.board, c.banks, found, hfound, rfl⟩
    board := hboard
    banks := hbanks }

theorem write_eq_ok {c : Cartridge} {addr : UInt16} {value : UInt8} {written : Noted Cartridge}
    (h : c.write addr value = .ok written) :
    ∃ reply wram banks, c.board.write addr value = .ok reply ∧
      c.banks.applyAll reply.selects = .ok banks ∧
      written.value = { c with wram, banks, board := reply.registers } := by
  obtain ⟨wram, _, h⟩ := Fault.bind_eq_ok_iff.mp h
  obtain ⟨reply, hreply, h⟩ := Fault.bind_eq_ok_iff.mp h
  obtain ⟨banks, hbanks, heq⟩ := Fault.bind_eq_ok_iff.mp h
  cases heq
  exact ⟨reply, wram, banks, hreply, hbanks, rfl⟩

/-- A read of the picture unit fetches a byte, and what the board makes of the address comes after
it. -/
theorem readVideo_eq_ok_iff {c c' : Cartridge} {video : VideoMemory} {addr : UInt16}
    {value : UInt8} :
    c.readVideo video addr = .ok (value, c') ↔
      c.fetch video (videoAddress addr) = .ok value ∧
        ∃ banks, c.banks.applyAll (c.board.afterRead (videoAddress addr)).selects = .ok banks ∧
          c' = { c with banks, board := (c.board.afterRead (videoAddress addr)).registers } := by
  constructor
  · intro h
    obtain ⟨_, hfetch, h⟩ := Fault.bind_eq_ok_iff.mp h
    obtain ⟨banks, hbanks, heq⟩ := Fault.bind_eq_ok_iff.mp h
    cases heq
    exact ⟨hfetch, banks, hbanks, rfl⟩
  · rintro ⟨hfetch, banks, hbanks, rfl⟩
    exact Fault.bind_eq_ok_iff.mpr ⟨value, hfetch, Fault.bind_eq_ok_iff.mpr ⟨banks, hbanks, rfl⟩⟩

namespace WellFormed

variable {d : Descriptor} {c : Cartridge} {video : VideoMemory}

/-! ## The CPU's side -/

theorem exists_rom (h : c.WellFormed d) {a : Nat} (hlow : c.board.kind.layout.prgStart ≤ a)
    (hhigh : a < 0x10000) :
    ∃ t, (do return .rom (← c.banks.prg.resolve a) : Except Fault PrgTarget) = .ok t ∧
      t.InBounds c := by
  have hstop := c.board.kind.layout_covers.prgStop
  obtain ⟨offset, hoffset, hlt⟩ :=
    h.banks.prg.exists_resolve h.valid.prgSize_pos hlow (by omega)
  rw [hoffset]
  refine ⟨.rom offset, rfl, ?_⟩
  simp only [PrgTarget.InBounds, h.prg_size]
  exact hlt

/-- Work RAM, locked or not, where there is any. -/
theorem exists_wram (h : c.WellFormed d) {a : Nat} (hlow : 0x6000 ≤ a) (hhigh : a < 0x8000)
    {target : Nat → PrgTarget} (htarget : ∀ offset < c.wram.size, (target offset).InBounds c) :
    ∃ t, (if c.banks.wram.isEmpty then return .openBus
        else return target (← c.banks.wram.resolve a) : Except Fault PrgTarget) = .ok t ∧
      t.InBounds c := by
  by_cases hempty : c.banks.wram.isEmpty
  · rw [if_pos hempty]
    exact ⟨.openBus, rfl, trivial⟩
  · have hpos : 0 < d.wramSize := by
      simp only [Window.isEmpty, h.banks.wram.size_eq, beq_iff_eq] at hempty
      omega
    obtain ⟨offset, hoffset, hlt⟩ := h.banks.wram.exists_resolve hpos hlow (by omega)
    rw [← h.wram_size] at hlt
    rw [if_neg hempty, hoffset]
    exact ⟨target offset, rfl, htarget offset hlt⟩

theorem exists_mapPrg (h : c.WellFormed d) (addr : UInt16) :
    ∃ t, c.board.mapPrg c.banks addr = .ok t ∧ t.InBounds c := by
  have haddr : addr.toNat < 0x10000 := addr.toNat_lt
  have hstart := c.board.kind.layout_covers.prgStart
  unfold Board.mapPrg
  simp only
  split
  · exact ⟨.openBus, rfl, trivial⟩
  · rename_i hopen
    split
    · rename_i hwork
      cases harea : c.board.workArea with
      | ram => exact h.exists_wram (by omega) hwork fun _ hlt => hlt
      | lockedRam => exact h.exists_wram (by omega) hwork fun _ hlt => hlt
      | register => exact ⟨.register, rfl, trivial⟩
      | rom =>
        have hlow := Board.prgStart_of_rom harea
        exact h.exists_rom (by omega) haddr
      | closed => exact ⟨.openBus, rfl, trivial⟩
    · exact h.exists_rom (by omega) haddr

theorem exists_read (h : c.WellFormed d) (addr : UInt16) : ∃ value, c.read addr = .ok value := by
  obtain ⟨t, ht, hbounds⟩ := h.exists_mapPrg addr
  unfold Cartridge.read
  rw [ht]
  cases t with
  | rom offset => exact Memory.exists_load hbounds
  | wram offset => exact Memory.exists_load hbounds
  | lockedWram offset => exact Memory.exists_load hbounds
  | register => exact ⟨_, rfl⟩
  | openBus => exact ⟨_, rfl⟩

theorem exists_writeWram (h : c.WellFormed d) (addr : UInt16) (value : UInt8) :
    ∃ wram, c.writeWram addr value = .ok wram ∧ wram.size = c.wram.size := by
  obtain ⟨t, ht, hbounds⟩ := h.exists_mapPrg addr
  unfold Cartridge.writeWram
  rw [ht]
  cases t with
  | wram offset => exact Memory.exists_store hbounds value
  | rom offset => exact ⟨_, rfl, rfl⟩
  | lockedWram offset => exact ⟨_, rfl, rfl⟩
  | register => exact ⟨_, rfl, rfl⟩
  | openBus => exact ⟨_, rfl, rfl⟩

/-- What an operation may change, and what it has to leave. -/
theorem update (h : c.WellFormed d) {board : Board} {banks : Banks} {wram : Memory}
    (hkind : board.kind = c.board.kind) (hboard : board.Valid)
    (hbanks : banks.Fitted d c.board.kind.layout) (hwram : wram.size = c.wram.size) :
    { c with board, banks, wram }.WellFormed d :=
  { h with
    wram_size := hwram.trans h.wram_size
    chosen := hkind ▸ h.chosen
    board := hboard
    banks := hkind ▸ hbanks }

theorem exists_write (h : c.WellFormed d) (addr : UInt16) (value : UInt8) :
    ∃ written, c.write addr value = .ok written ∧ written.value.WellFormed d := by
  obtain ⟨wram, hwram, hsize⟩ := h.exists_writeWram addr value
  obtain ⟨reply, hreply, hkeeps⟩ := Board.exists_write (d := d) h.board addr value
  obtain ⟨banks, hbanks⟩ := Banks.exists_applyAll h.banks hkeeps.fits
  have hfitted := Banks.applyAll_fitted h.banks hbanks
  have hwritten := h.update hkeeps.kind hkeeps.valid hfitted hsize
  refine ⟨{ value := _, notes := reply.notes }, ?_, hwritten⟩
  simp only [Cartridge.write, hwram, hreply, hbanks, bind, Except.bind]
  rfl

theorem exists_clock (h : c.WellFormed d) : ∃ c', c.clock = .ok c' ∧ c'.WellFormed d := by
  obtain ⟨board, hboard, hkind, hvalid⟩ := Board.exists_clock h.board
  refine ⟨{ c with board }, ?_, h.update hkind hvalid h.banks rfl⟩
  simp only [Cartridge.clock, hboard, bind, Except.bind]
  rfl

theorem exists_scanline (h : c.WellFormed d) : ∃ c', c.scanline = .ok c' ∧ c'.WellFormed d := by
  obtain ⟨board, hboard, hkind, hvalid⟩ := Board.exists_scanline h.board
  refine ⟨{ c with board }, ?_, h.update hkind hvalid h.banks rfl⟩
  simp only [Cartridge.scanline, hboard, bind, Except.bind]
  rfl

theorem acknowledge (h : c.WellFormed d) : c.acknowledge.WellFormed d :=
  h.update c.board.acknowledge_kind (Board.acknowledge_valid h.board) h.banks rfl

/-! ## The picture unit's side -/

theorem videoAddress_lt (addr : UInt16) : videoAddress addr < 0x4000 :=
  Nat.mod_lt _ (by omega)

theorem exists_mapPpu (h : c.WellFormed d) (hvideo : video.Fits d) {a : Nat} (ha : a < 0x4000) :
    ∃ t, c.banks.mapPpu a = .ok t ∧ t.InBounds { cartridge := c, video } := by
  have hstop := c.board.kind.layout_covers.chrStop
  unfold Banks.mapPpu
  by_cases hpattern : a < 0x2000
  · obtain ⟨offset, hoffset, hlt⟩ :=
      h.banks.chr.exists_resolve h.valid.patternSize_pos (Nat.zero_le a) (by omega)
    rw [if_pos hpattern, hoffset]
    refine ⟨.pattern offset, rfl, ?_⟩
    simp only [PpuTarget.InBounds, h.descriptor]
    unfold Descriptor.patternSize at hlt
    split
    · rename_i hram
      rw [if_pos hram] at hlt
      rw [hvideo.size_patterns hram]
      exact hlt
    · rename_i hrom
      rw [if_neg hrom] at hlt
      rw [h.chr_size]
      exact hlt
  · obtain ⟨offset, hoffset, hlt⟩ :=
      h.banks.nametables.exists_resolve (by decide) (Nat.le_add_right 0x2000 (a % 0x1000))
        (by simp only [Window.nametableSize]; omega)
    rw [if_neg hpattern, hoffset]
    refine ⟨.nametable offset, rfl, ?_⟩
    simp only [PpuTarget.InBounds, hvideo.size_nametables]
    exact hlt

theorem exists_fetch (h : c.WellFormed d) (hvideo : video.Fits d) (addr : UInt16) :
    ∃ value, c.fetch video (videoAddress addr) = .ok value := by
  obtain ⟨t, ht, hbounds⟩ := h.exists_mapPpu hvideo (videoAddress_lt addr)
  unfold Cartridge.fetch
  rw [ht]
  cases t with
  | pattern offset =>
    simp only [PpuTarget.InBounds] at hbounds
    simp only [bind, Except.bind]
    split
    · rename_i hram
      rw [if_pos hram] at hbounds
      exact Memory.exists_load hbounds
    · rename_i hrom
      rw [if_neg hrom] at hbounds
      exact Memory.exists_load hbounds
  | nametable offset => exact Memory.exists_load hbounds

theorem exists_readVideo (h : c.WellFormed d) (hvideo : video.Fits d) (addr : UInt16) :
    ∃ value c', c.readVideo video addr = .ok (value, c') := by
  obtain ⟨value, hvalue⟩ := h.exists_fetch hvideo addr
  have hkeeps := Board.afterRead_keeps (d := d) h.board (videoAddress addr)
  obtain ⟨banks, hbanks⟩ := Banks.exists_applyAll h.banks hkeeps.fits
  exact ⟨value, _, readVideo_eq_ok_iff.mpr ⟨hvalue, banks, hbanks, rfl⟩⟩

theorem readVideo (h : c.WellFormed d) {addr : UInt16} {value : UInt8} {c' : Cartridge}
    (hread : c.readVideo video addr = .ok (value, c')) : c'.WellFormed d := by
  obtain ⟨_, banks, hbanks, rfl⟩ := readVideo_eq_ok_iff.mp hread
  have hkeeps := Board.afterRead_keeps (d := d) h.board (videoAddress addr)
  exact h.update hkeeps.kind hkeeps.valid (Banks.applyAll_fitted h.banks hbanks) rfl

theorem exists_writeVideo (h : c.WellFormed d) (hvideo : video.Fits d) (addr : UInt16)
    (value : UInt8) : ∃ video', c.writeVideo video addr value = .ok video' ∧ video'.Fits d := by
  obtain ⟨t, ht, hbounds⟩ := h.exists_mapPpu hvideo (videoAddress_lt addr)
  unfold Cartridge.writeVideo
  rw [ht]
  cases t with
  | pattern offset =>
    simp only [PpuTarget.InBounds] at hbounds
    simp only [bind, Except.bind]
    split
    · rename_i hram
      rw [if_pos hram] at hbounds
      obtain ⟨patterns, hstore, hsize⟩ := Memory.exists_store hbounds value
      rw [hstore]
      exact ⟨_, rfl, { hvideo with patterns := hsize.trans hvideo.patterns }⟩
    · exact ⟨video, rfl, hvideo⟩
  | nametable offset =>
    obtain ⟨nametables, hstore, hsize⟩ := Memory.exists_store hbounds value
    simp only [bind, Except.bind, hstore]
    exact ⟨_, rfl, { hvideo with nametables := hsize.trans hvideo.nametables }⟩

/-! ## Save RAM and snapshots -/

theorem loadSaveRam (h : c.WellFormed d) {data : Memory} {c' : Cartridge}
    (hload : c.loadSaveRam data = .ok c') : c'.WellFormed d := by
  unfold Cartridge.loadSaveRam at hload
  split at hload
  · rename_i hsize
    cases hload
    exact h.update rfl h.board h.banks hsize
  · cases hload

/-- Any snapshot meets an answer, be it an error. -/
theorem exists_restore (h : c.WellFormed d) (s : Snapshot) :
    ∃ restored, c.restore s = .ok restored := by
  obtain ⟨fresh, banks, found, hfound, _⟩ := h.chosen
  rw [← h.descriptor] at hfound
  cases hrefusal : s.refusal? c fresh banks with
  | none => exact ⟨_, restore_of_suits hfound (Snapshot.refusal?_eq_none_iff.mp hrefusal)⟩
  | some e =>
    obtain ⟨notes, hnotes⟩ := restore_of_refusal hfound hrefusal
    exact ⟨_, hnotes⟩

theorem restore (h : c.WellFormed d) {s : Snapshot} {c' : Cartridge} {notes : List Note}
    (hrestore : c.restore s = .ok { value := .ok c', notes }) : c'.WellFormed d := by
  obtain ⟨fresh, banks, hfound, hsuits, rfl⟩ := restore_eq_ok hrestore
  obtain ⟨chosen, _, _, hchosen, hkind⟩ := h.chosen
  rw [h.descriptor, hchosen] at hfound
  cases hfound
  have hfitted := (Registry.configure_fitted hchosen).2
  rw [hkind] at hfitted
  have hbanks := hsuits.banksOver_fitted hfitted
  exact h.update (hsuits.kind.trans hkind) hsuits.valid hbanks hsuits.wram

end WellFormed

end Cartridge

end GamePak
