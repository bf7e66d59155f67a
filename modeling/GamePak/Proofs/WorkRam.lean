import GamePak.Proofs.Persistence

/-!
Work RAM as memory. It lies behind the 8 KiB below program memory, where a board lets it through,
and nothing else reaches it. A write that reaches it stores one byte and leaves the board alone,
though some boards have registers in the same area: those keep work RAM out of it. Program memory
begins above, and below there is nothing to write to.
-/

namespace GamePak

variable {d : Descriptor}

theorem Memory.load_set {m : Memory} {offset : Nat} (h : offset < m.size) (value : UInt8)
    (other : Nat) :
    Memory.load (m.set offset value h) other =
      if other = offset then .ok value else m.load other := by
  unfold load
  by_cases heq : other = offset
  · rw [if_pos heq, heq, Array.getElem?_set_self]
  · rw [if_neg heq, Array.getElem?_set_ne h (Ne.symm heq), Array.size_set]

/-! ## What lies where -/

/-- What an address of the area can reach; work RAM that is not there leaves the bus open. -/
def WorkArea.Shows (target : PrgTarget) : WorkArea → Prop
  | ram => target = .openBus ∨ ∃ offset, target = .wram offset
  | lockedRam => target = .openBus ∨ ∃ offset, target = .lockedWram offset
  | register => target = .register
  | rom => ∃ offset, target = .rom offset
  | closed => target = .openBus

namespace Board

variable {b : Board} {banks : Banks} {addr : UInt16} {target : PrgTarget}

/-- What an address can reach: nothing below the work area, what the board puts into the area, and
program memory above it. -/
theorem mapPrg_cases (h : b.mapPrg banks addr = .ok target) :
    (addr.toNat < 0x6000 ∧ target = .openBus) ∨
    (0x6000 ≤ addr.toNat ∧ addr.toNat < 0x8000 ∧ b.workArea.Shows target) ∨
    (0x8000 ≤ addr.toNat ∧ ∃ offset, target = .rom offset) := by
  -- Work RAM, locked or not, is looked up in the same way.
  have hram : ∀ {reach : Nat → PrgTarget},
      (if banks.wram.isEmpty then return .openBus
        else return reach (← banks.wram.resolve addr.toNat) : Except Fault PrgTarget) = .ok target →
      target = .openBus ∨ ∃ offset, target = reach offset := by
    intro reach h
    split at h
    · cases h
      exact .inl rfl
    · obtain ⟨offset, _, heq⟩ := Fault.bind_eq_ok_iff.mp h
      cases heq
      exact .inr ⟨offset, rfl⟩
  have hrom : (do return .rom (← banks.prg.resolve addr.toNat) : Except Fault PrgTarget) =
      .ok target → ∃ offset, target = .rom offset := by
    intro h
    obtain ⟨offset, _, heq⟩ := Fault.bind_eq_ok_iff.mp h
    cases heq
    exact ⟨offset, rfl⟩
  unfold mapPrg at h
  simp only at h
  split at h
  · rename_i hlow
    cases h
    exact .inl ⟨hlow, rfl⟩
  · rename_i hlow
    split at h
    · rename_i hhigh
      refine .inr (.inl ⟨by omega, hhigh, ?_⟩)
      cases harea : b.workArea with
      | ram =>
        rw [harea] at h
        exact hram h
      | lockedRam =>
        rw [harea] at h
        exact hram h
      | register =>
        rw [harea] at h
        cases h
        rfl
      | rom =>
        rw [harea] at h
        exact hrom h
      | closed =>
        rw [harea] at h
        cases h
        rfl
    · exact .inr (.inr ⟨by omega, hrom h⟩)

/-- Work RAM that can be written lies in the area, and the board lets it through. -/
theorem area_of_mapPrg_wram {offset : Nat} (h : b.mapPrg banks addr = .ok (.wram offset)) :
    0x6000 ≤ addr.toNat ∧ addr.toNat < 0x8000 ∧ b.workArea = .ram := by
  obtain ⟨_, heq⟩ | ⟨hlow, hhigh, hshows⟩ | ⟨_, _, heq⟩ := mapPrg_cases h
  · cases heq
  · refine ⟨hlow, hhigh, ?_⟩
    cases harea : b.workArea with
    | ram => rfl
    | _ => simp [harea, WorkArea.Shows] at hshows
  · cases heq

theorem not_mapPrg_lockedWram (h : b.workArea = .ram) {offset : Nat} :
    b.mapPrg banks addr ≠ .ok (.lockedWram offset) := by
  intro hmap
  obtain ⟨_, heq⟩ | ⟨_, _, hshows⟩ | ⟨_, _, heq⟩ := mapPrg_cases hmap
  · cases heq
  · simp [h, WorkArea.Shows] at hshows
  · cases heq

/-! ## What a board does not see -/

/-- Where work RAM answers, and below it, a board has no registers. -/
theorem write_below (b : Board) (value : UInt8) (haddr : addr.toNat < 0x8000)
    (h : addr.toNat < 0x6000 ∨ b.workArea = .ram) :
    b.write addr value = .ok { registers := b } := by
  cases b with
  | discrete chip =>
    simp only [write, Discrete.write, haddr, if_true]
    rfl
  | mmc1 r =>
    simp only [write, Mmc1.write, haddr, if_true]
    rfl
  | mmc2 r =>
    simp only [write, Mmc2.write, show addr.toNat < 0xA000 by omega, if_true]
    rfl
  | mmc3 r =>
    simp only [write, Mmc3.write, haddr, if_true]
    rfl
  | fcg r =>
    have hlow : ¬ r.Decodes addr.toNat := by
      have hlow := h.resolve_right (by simp [workArea])
      unfold Fcg.Decodes
      split
      · omega
      · split <;> omega
    simp only [write, Fcg.write, hlow, not_false_iff, if_true]
    rfl
  | vrc4 r =>
    by_cases hlow : addr.toNat < 0x6000
    · simp only [write, Vrc4.write, hlow, if_true]
      rfl
    · have hlatch : r.latch = none := by
        have hram := h.resolve_left hlow
        simp only [workArea, Vrc4.workArea] at hram
        cases hlatch : r.latch with
        | none => rfl
        | some bit => simp [hlatch] at hram
      have hsame : { r with latch := r.latch.map fun _ => value.toNat.testBit 0 } = r := by
        rw [hlatch, Option.map_none, ← hlatch]
      simp only [write, Vrc4.write, hlow, haddr, if_false, if_true, hsame]
      rfl
  | fme7 r =>
    simp only [write, Fme7.write, haddr, if_true]
    rfl
  | codemasters r =>
    simp only [write, Codemasters.write, haddr, if_true]
    rfl
  | vrc3 r =>
    simp only [write, Vrc3.write, haddr, if_true]
    rfl

end Board

/-! ## One write -/

namespace Cartridge

variable {c : Cartridge} {addr : UInt16} {value : UInt8} {offset : Nat}

/-- Work RAM is written before the board sees the write. -/
theorem write_wram {written : Noted Cartridge} (h : c.write addr value = .ok written) :
    c.writeWram addr value = .ok written.value.wram := by
  obtain ⟨wram, hwram, h⟩ := Fault.bind_eq_ok_iff.mp h
  obtain ⟨reply, _, h⟩ := Fault.bind_eq_ok_iff.mp h
  obtain ⟨banks, _, heq⟩ := Fault.bind_eq_ok_iff.mp h
  cases heq
  exact hwram

theorem write_of_quiet {wram : Memory} (hwram : c.writeWram addr value = .ok wram)
    (hquiet : c.board.write addr value = .ok { registers := c.board }) :
    c.write addr value = .ok { value := { c with wram } } := by
  simp only [write, hwram, hquiet, bind, Except.bind]
  rfl

theorem read_stored (hmap : c.board.mapPrg c.banks addr = .ok (.wram offset))
    (hlt : offset < c.wram.size) :
    { c with wram := c.wram.set offset value hlt }.read addr = .ok value := by
  simp only [read, hmap, bind, Except.bind, Memory.load_set, if_true]

namespace WellFormed

/-- A write that reaches work RAM stores its byte and does nothing else. -/
theorem write_stores (h : c.WellFormed d) (value : UInt8)
    (hmap : c.board.mapPrg c.banks addr = .ok (.wram offset)) :
    ∃ hlt : offset < c.wram.size,
      c.write addr value = .ok { value := { c with wram := c.wram.set offset value hlt } } := by
  have hlt : offset < c.wram.size :=
    Fault.of_exists_ok (P := fun target => target.InBounds c) (h.exists_mapPrg addr) hmap
  obtain ⟨_, hhigh, harea⟩ := Board.area_of_mapPrg_wram hmap
  have hwram : c.writeWram addr value = .ok (c.wram.set offset value hlt) := by
    simp only [writeWram, hmap, bind, Except.bind, Memory.store, dif_pos hlt]
  exact ⟨hlt, write_of_quiet hwram (c.board.write_below value hhigh (.inr harea))⟩

/-- Work RAM no larger than the area repeats in it. -/
theorem mapPrg_small (h : c.WellFormed d) (harea : c.board.workArea = .ram) (hpos : 0 < d.wramSize)
    (hle : d.wramSize ≤ 0x2000) (hlow : 0x6000 ≤ addr.toNat) (hhigh : addr.toNat < 0x8000) :
    c.board.mapPrg c.banks addr = .ok (.wram (addr.toNat % d.wramSize)) := by
  have hcut := h.banks.wram
  have hempty : c.banks.wram.isEmpty = false := by
    simp only [Window.isEmpty, hcut.size_eq, beq_eq_false_iff_ne]
    omega
  have hresolve : c.banks.wram.resolve addr.toNat = .ok (addr.toNat % d.wramSize) := by
    rw [hcut.resolve_eq hpos hlow (hcut.bank_of_le hle (by omega)), Nat.zero_mul, Nat.zero_add,
      Nat.min_eq_right hle]
  unfold Board.mapPrg
  simp only [show ¬ addr.toNat < 0x6000 by omega, hhigh, harea, hempty, hresolve, if_false, if_true]
  rfl

/-- A write that does not reach work RAM leaves it. -/
theorem writeWram_spares (h : c.WellFormed d)
    (hmap : ∀ offset, c.board.mapPrg c.banks addr ≠ .ok (.wram offset)) :
    c.writeWram addr value = .ok c.wram := by
  obtain ⟨target, htarget, _⟩ := h.exists_mapPrg addr
  unfold writeWram
  cases target with
  | wram offset => exact absurd htarget (hmap offset)
  | _ =>
    rw [htarget]
    rfl

theorem write_spares (h : c.WellFormed d)
    (hmap : ∀ offset, c.board.mapPrg c.banks addr ≠ .ok (.wram offset)) {written : Noted Cartridge}
    (hwritten : c.write addr value = .ok written) : written.value.wram = c.wram :=
  Except.ok.inj ((write_wram hwritten).symm.trans (h.writeWram_spares hmap))

theorem write_nothing (h : c.WellFormed d) (haddr : addr.toNat < 0x6000) :
    c.write addr value = .ok { value := c } := by
  have hmap : ∀ offset, c.board.mapPrg c.banks addr ≠ .ok (.wram offset) := by
    intro offset hmap
    have harea := Board.area_of_mapPrg_wram hmap
    omega
  exact write_of_quiet (h.writeWram_spares hmap)
    (c.board.write_below value (by omega) (.inl haddr))

/-- What does not reach the byte reads as before. -/
theorem read_spared (h : c.WellFormed d) (harea : c.board.workArea = .ram)
    (hlt : offset < c.wram.size) (hmap : c.board.mapPrg c.banks addr ≠ .ok (.wram offset)) :
    { c with wram := c.wram.set offset value hlt }.read addr = c.read addr := by
  obtain ⟨target, htarget, _⟩ := h.exists_mapPrg addr
  simp only [Cartridge.read, htarget, bind, Except.bind]
  cases target with
  | wram other =>
    have hne : other ≠ offset := by
      rintro rfl
      exact hmap htarget
    simp only [Memory.load_set, if_neg hne]
  | lockedWram other => exact absurd htarget (Board.not_mapPrg_lockedWram harea)
  | rom other => rfl
  | register => rfl
  | openBus => rfl

end WellFormed

end Cartridge

/-! ## The one-bit memory of the VRC2 -/

namespace Vrc4

variable {r : Vrc4} {addr : Nat}

theorem write_area (hlow : 0x6000 ≤ addr) (hhigh : addr < 0x8000) (value : UInt8) :
    r.write addr value =
      { registers := { r with latch := r.latch.map fun _ => value.toNat.testBit 0 } } := by
  unfold write
  simp only [show ¬ addr < 0x6000 by omega, hhigh, if_false, if_true]

/-- The one bit that is stored is the only one that is read. -/
theorem readLatch_written (h : r.latch.isSome) (value : UInt8) :
    { r with latch := r.latch.map fun _ => value.toNat.testBit 0 }.readLatch = value &&& 1 := by
  obtain ⟨bit, hbit⟩ := Option.isSome_iff_exists.mp h
  have hone : (value &&& 1).toNat = value.toNat % 2 := by
    rw [UInt8.toNat_and]
    exact Nat.and_one_is_mod _
  apply UInt8.toNat_inj.mp
  simp only [readLatch, hbit, Option.map_some, Option.getD_some, Nat.testBit_zero, hone]
  by_cases hodd : value.toNat % 2 = 1
  · simp [hodd]
  · have heven : value.toNat % 2 = 0 := by omega
    simp [heven]

end Vrc4

theorem Board.mapPrg_register {b : Board} (harea : b.workArea = .register) (banks : Banks)
    {addr : UInt16} (hlow : 0x6000 ≤ addr.toNat) (hhigh : addr.toNat < 0x8000) :
    b.mapPrg banks addr = .ok .register := by
  unfold mapPrg
  simp only [show ¬ addr.toNat < 0x6000 by omega, hhigh, harea, if_false, if_true]
  rfl

/-- The bit is stored in the registers, and all addresses of the area reach it. -/
theorem Cartridge.WellFormed.write_latch {c : Cartridge} (h : c.WellFormed d) {r : Vrc4}
    (hboard : c.board = .vrc4 r) (hlatch : r.latch.isSome) {addr : UInt16} (value : UInt8)
    (hlow : 0x6000 ≤ addr.toNat) (hhigh : addr.toNat < 0x8000) :
    ∃ c', c.write addr value = .ok { value := c' } ∧ c'.wram = c.wram ∧
      ∀ b : UInt16, 0x6000 ≤ b.toNat → b.toNat < 0x8000 → c'.read b = .ok (value &&& 1) := by
  have harea : c.board.workArea = .register := by
    simp only [hboard, Board.workArea, Vrc4.workArea, hlatch, if_true]
  have hwram : c.writeWram addr value = .ok c.wram := by
    refine h.writeWram_spares fun offset hmap => ?_
    have hram := (Board.area_of_mapPrg_wram hmap).2.2
    rw [harea] at hram
    cases hram
  let stored : Vrc4 := { r with latch := r.latch.map fun _ => value.toNat.testBit 0 }
  have hwrite : c.board.write addr value = .ok { registers := .vrc4 stored } := by
    rw [hboard]
    exact congrArg (Except.ok ∘ Reply.map Board.vrc4) (r.write_area hlow hhigh value)
  refine ⟨{ c with board := .vrc4 stored }, ?_, rfl, ?_⟩
  · simp only [Cartridge.write, hwram, hwrite, bind, Except.bind]
    rfl
  · intro b hb hb'
    have hstored : (Board.vrc4 stored).workArea = .register := by
      simp only [Board.workArea, Vrc4.workArea, stored, Option.isSome_map, hlatch, if_true]
    simp only [Cartridge.read, Board.mapPrg_register hstored _ hb hb', bind, Except.bind]
    exact congrArg Except.ok (Vrc4.readLatch_written hlatch value)

/-- Work RAM behaves as memory, and only through its area: a write changes at most the byte that
its address reaches, and nothing besides where it reaches one. Below the area a write does nothing,
and a board that has a single bit in place of work RAM stores the lowest one there. -/
theorem work_ram_is_memory {c : Cartridge} (hc : c.Reachable d) (addr : UInt16) (value : UInt8) :
    ∃ written, c.write addr value = .ok written ∧
      (∀ offset, c.board.mapPrg c.banks addr = .ok (.wram offset) →
        ∃ hlt : offset < c.wram.size,
          written.value = { c with wram := c.wram.set offset value hlt } ∧
          ∀ b, (c.board.mapPrg c.banks b = .ok (.wram offset) → written.value.read b = .ok value) ∧
            (c.board.mapPrg c.banks b ≠ .ok (.wram offset) → written.value.read b = c.read b)) ∧
      ((∀ offset, c.board.mapPrg c.banks addr ≠ .ok (.wram offset)) →
        written.value.wram = c.wram) ∧
      (0x8000 ≤ addr.toNat → written.value.wram = c.wram) ∧
      (addr.toNat < 0x6000 → written = { value := c }) ∧
      ∀ r, c.board = .vrc4 r → r.latch.isSome → 0x6000 ≤ addr.toNat → addr.toNat < 0x8000 →
        written.value.wram = c.wram ∧ ∀ b : UInt16, 0x6000 ≤ b.toNat → b.toNat < 0x8000 →
          written.value.read b = .ok (value &&& 1) := by
  have hcart := hc.wellFormed
  obtain ⟨written, hwritten, _⟩ := hcart.exists_write addr value
  refine ⟨written, hwritten, ?_, fun hmap => hcart.write_spares hmap hwritten, ?_, ?_, ?_⟩
  · intro offset hmap
    obtain ⟨hlt, hstores⟩ := hcart.write_stores value hmap
    have harea := (Board.area_of_mapPrg_wram hmap).2.2
    obtain rfl := Except.ok.inj (hstores.symm.trans hwritten)
    exact ⟨hlt, rfl, fun b => ⟨fun hb => Cartridge.read_stored hb hlt,
      fun hb => hcart.read_spared harea hlt hb⟩⟩
  · intro hhigh
    refine hcart.write_spares (fun offset hmap => ?_) hwritten
    have harea := Board.area_of_mapPrg_wram hmap
    omega
  · intro hlow
    exact Except.ok.inj (hwritten.symm.trans (hcart.write_nothing hlow))
  · intro r hboard hlatch hlow hhigh
    obtain ⟨c', hstored, hwram, hreads⟩ := hcart.write_latch hboard hlatch value hlow hhigh
    obtain rfl := Except.ok.inj (hstored.symm.trans hwritten)
    exact ⟨hwram, hreads⟩

/-- Work RAM of a quarter of the area, once it has been selected and enabled: the byte is read back
through another of its places. -/
theorem work_ram_is_memory_smallFme7 :
    ∃ c notes, Cartridge.load .smallFme7 (.zeroed 0x8000) #[] = .ok { value := .ok c, notes } ∧
      ∃ c', c.writeAll [(0x8000, 8), (0xA000, 0xC0)] = .ok c' ∧
        ∃ written, c'.write 0x6123 5 = .ok written ∧ written.value.read 0x7923 = .ok 5 := by
  obtain ⟨c, notes, hload, hboard⟩ := Descriptor.smallFme7_load
  obtain ⟨c', hwritten, hreachable, hafter, _⟩ := Cartridge.Reachable.exists_writeAll (.load hload)
    [(0x8000, 8), (0xA000, 0xC0)]
  rw [hboard] at hafter
  have harea : c'.board.workArea = .ram := by
    rw [← Except.ok.inj hafter]
    rfl
  have hmap : ∀ addr : UInt16, 0x6000 ≤ addr.toNat → addr.toNat < 0x8000 →
      c'.board.mapPrg c'.banks addr = .ok (.wram (addr.toNat % 0x800)) := fun addr hlow hhigh =>
    hreachable.wellFormed.mapPrg_small harea (by decide) (by decide) hlow hhigh
  obtain ⟨written, hwrite, hstores, _⟩ := work_ram_is_memory hreachable 0x6123 5
  obtain ⟨_, _, hreads⟩ := hstores _ (hmap 0x6123 (by decide) (by decide))
  exact ⟨c, notes, hload, c', hwritten, written, hwrite,
    (hreads 0x7923).1 (hmap 0x7923 (by decide) (by decide))⟩

end GamePak
