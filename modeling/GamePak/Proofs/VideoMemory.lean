import GamePak.Proofs.Nametables
import GamePak.Proofs.WorkRam

/-!
Video memory as memory. Its bytes are cells, those of pattern RAM and those of the nametables, and
banks and arrangement say which cell lies behind an address. A write stores one byte in the cell
behind its address and a read fetches the byte of the cell behind its own, so that what a write
does to a read is decided by whether the two addresses share a cell. Behind an address of pattern
ROM there is none.
-/

namespace GamePak

variable {d : Descriptor}

/-! ## Cells -/

/-- The target is a cell of video memory; a byte of pattern ROM is not. -/
def PpuTarget.IsCell (d : Descriptor) : PpuTarget → Prop
  | pattern _ => d.usesChrRam = true
  | nametable _ => True

theorem Memory.store_eq_ok {m m' : Memory} {offset : Nat} {value : UInt8}
    (h : m.store offset value = .ok m') : ∃ hlt : offset < m.size, m' = m.set offset value hlt := by
  unfold store at h
  split at h
  · rename_i hlt
    exact ⟨hlt, (Except.ok.inj h).symm⟩
  · cases h

namespace VideoMemory

variable {video video' : VideoMemory} {cell other : PpuTarget} {value : UInt8}

def load (video : VideoMemory) : PpuTarget → Except Fault UInt8
  | .pattern offset => video.patterns.load offset
  | .nametable offset => video.nametables.load offset

def store (video : VideoMemory) (value : UInt8) : PpuTarget → Except Fault VideoMemory
  | .pattern offset => do return { video with patterns := ← video.patterns.store offset value }
  | .nametable offset => do
    return { video with nametables := ← video.nametables.store offset value }

/-- Pattern RAM and nametables are apart, so a store changes the one cell that it names. -/
theorem load_store (h : video.store value cell = .ok video') :
    video'.load other = if other = cell then .ok value else video.load other := by
  cases cell with
  | pattern offset =>
    obtain ⟨patterns, hstore, heq⟩ := Fault.bind_eq_ok_iff.mp h
    cases heq
    obtain ⟨hlt, rfl⟩ := Memory.store_eq_ok hstore
    cases other with
    | pattern place => simp only [load, Memory.load_set, PpuTarget.pattern.injEq]
    | nametable place => simp only [load, reduceCtorEq, if_false]
  | nametable offset =>
    obtain ⟨nametables, hstore, heq⟩ := Fault.bind_eq_ok_iff.mp h
    cases heq
    obtain ⟨hlt, rfl⟩ := Memory.store_eq_ok hstore
    cases other with
    | pattern place => simp only [load, reduceCtorEq, if_false]
    | nametable place => simp only [load, Memory.load_set, PpuTarget.nametable.injEq]

end VideoMemory

/-- Patterns lie below 2000 and nametables above. -/
theorem Banks.mapPpu_cases {b : Banks} {addr : Nat} {target : PpuTarget}
    (h : b.mapPpu addr = .ok target) :
    (addr < 0x2000 ∧ ∃ offset, target = .pattern offset) ∨
      (0x2000 ≤ addr ∧ ∃ offset, target = .nametable offset) := by
  unfold mapPpu at h
  by_cases haddr : addr < 0x2000
  · rw [if_pos haddr] at h
    obtain ⟨offset, _, heq⟩ := Fault.bind_eq_ok_iff.mp h
    exact .inl ⟨haddr, offset, (Except.ok.inj heq).symm⟩
  · rw [if_neg haddr] at h
    obtain ⟨offset, _, heq⟩ := Fault.bind_eq_ok_iff.mp h
    exact .inr ⟨by omega, offset, (Except.ok.inj heq).symm⟩

namespace Cartridge

variable {c : Cartridge} {video video' : VideoMemory} {addr : UInt16} {target : PpuTarget}

/-- The same cell of video memory lies behind both addresses. -/
def SharesCell (c : Cartridge) (a b : UInt16) : Prop :=
  ∃ cell : PpuTarget, cell.IsCell c.descriptor ∧
    c.banks.mapPpu (videoAddress a) = .ok cell ∧ c.banks.mapPpu (videoAddress b) = .ok cell

theorem SharesCell.symm {a b : UInt16} (h : c.SharesCell a b) : c.SharesCell b a := by
  obtain ⟨cell, hcell, ha, hb⟩ := h
  exact ⟨cell, hcell, hb, ha⟩

theorem sharesCell_iff {a b : UInt16} (ha : c.banks.mapPpu (videoAddress a) = .ok target) :
    c.SharesCell a b ↔
      target.IsCell c.descriptor ∧ c.banks.mapPpu (videoAddress b) = .ok target := by
  constructor
  · rintro ⟨cell, hcell, ha', hb⟩
    obtain rfl : target = cell := Except.ok.inj (ha.symm.trans ha')
    exact ⟨hcell, hb⟩
  · rintro ⟨hcell, hb⟩
    exact ⟨target, hcell, ha, hb⟩

/-! ## Accesses by cell -/

theorem fetch_cell {a : Nat} (hmap : c.banks.mapPpu a = .ok target)
    (hcell : target.IsCell c.descriptor) (video : VideoMemory) :
    c.fetch video a = video.load target := by
  unfold fetch
  rw [hmap]
  cases target with
  | pattern offset => exact if_pos hcell
  | nametable offset => rfl

theorem fetch_rom {a : Nat} (hmap : c.banks.mapPpu a = .ok target)
    (hrom : ¬ target.IsCell c.descriptor) (video : VideoMemory) :
    c.fetch video' a = c.fetch video a := by
  unfold fetch
  rw [hmap]
  cases target with
  | pattern offset => exact (if_neg hrom).trans (if_neg hrom).symm
  | nametable offset => exact absurd trivial hrom

theorem writeVideo_cell (hmap : c.banks.mapPpu (videoAddress addr) = .ok target)
    (hcell : target.IsCell c.descriptor) (value : UInt8) :
    c.writeVideo video addr value = video.store value target := by
  unfold writeVideo
  rw [hmap]
  cases target with
  | pattern offset => exact if_pos hcell
  | nametable offset => rfl

theorem writeVideo_rom (hmap : c.banks.mapPpu (videoAddress addr) = .ok target)
    (hrom : ¬ target.IsCell c.descriptor) (value : UInt8) :
    c.writeVideo video addr value = .ok video := by
  unfold writeVideo
  rw [hmap]
  cases target with
  | pattern offset => exact if_neg hrom
  | nametable offset => exact absurd trivial hrom

/-- What a read does to the board does not depend on what is in video memory. -/
theorem readVideo_of_fetch {old value : UInt8} {next : Cartridge}
    (h : c.readVideo video addr = .ok (old, next))
    (hfetch : c.fetch video' (videoAddress addr) = .ok value) :
    c.fetch video (videoAddress addr) = .ok old ∧ c.readVideo video' addr = .ok (value, next) := by
  obtain ⟨hold, hafter⟩ := readVideo_eq_ok_iff.mp h
  exact ⟨hold, readVideo_eq_ok_iff.mpr ⟨hfetch, hafter⟩⟩

namespace WellFormed

/-- After a write, addresses that share its cell give its byte and all others what they gave. -/
theorem fetch_written (h : c.WellFormed d) (hvideo : video.Fits d) {a b : UInt16} {value : UInt8}
    (hwrite : c.writeVideo video a value = .ok video') :
    (c.SharesCell a b → c.fetch video' (videoAddress b) = .ok value) ∧
      (¬ c.SharesCell a b → c.fetch video' (videoAddress b) = c.fetch video (videoAddress b)) := by
  obtain ⟨cell, ha, _⟩ := h.exists_mapPpu hvideo (videoAddress_lt a)
  obtain ⟨other, hb, _⟩ := h.exists_mapPpu hvideo (videoAddress_lt b)
  rw [sharesCell_iff ha]
  by_cases hcell : cell.IsCell c.descriptor
  · rw [writeVideo_cell ha hcell] at hwrite
    constructor
    · rintro ⟨_, hshared⟩
      rw [fetch_cell hshared hcell, VideoMemory.load_store hwrite, if_pos rfl]
    · intro hapart
      by_cases hother : other.IsCell c.descriptor
      · have hne : other ≠ cell := by
          rintro rfl
          exact hapart ⟨hcell, hb⟩
        rw [fetch_cell hb hother, fetch_cell hb hother, VideoMemory.load_store hwrite, if_neg hne]
      · exact fetch_rom hb hother video
  · rw [writeVideo_rom ha hcell] at hwrite
    cases hwrite
    exact ⟨fun hshared => absurd hshared.1 hcell, fun _ => rfl⟩

/-- There is a cell behind every address but those of pattern ROM. -/
theorem sharesCell_self_iff (h : c.WellFormed d) (a : UInt16) :
    c.SharesCell a a ↔ d.usesChrRam = true ∨ 0x2000 ≤ videoAddress a := by
  have hcleared : (VideoMemory.cleared d).Fits d := ⟨rfl, rfl⟩
  obtain ⟨target, htarget, _⟩ := h.exists_mapPpu hcleared (videoAddress_lt a)
  rw [sharesCell_iff htarget, and_iff_left htarget, h.descriptor]
  rcases Banks.mapPpu_cases htarget with ⟨hlow, offset, rfl⟩ | ⟨hhigh, offset, rfl⟩
  · exact (or_iff_left (Nat.not_le.mpr hlow)).symm
  · exact iff_of_true trivial (.inr hhigh)

/-- Pattern ROM ignores writes. -/
theorem writeVideo_ignored (h : c.WellFormed d) (hvideo : video.Fits d) {a : UInt16}
    (hrom : d.usesChrRam = false) (ha : videoAddress a < 0x2000) (value : UInt8) :
    c.writeVideo video a value = .ok video := by
  obtain ⟨target, htarget, _⟩ := h.exists_mapPpu hvideo (videoAddress_lt a)
  apply writeVideo_rom htarget
  intro hcell
  have hself := (h.sharesCell_self_iff a).mp ((sharesCell_iff htarget).mpr ⟨hcell, htarget⟩)
  rw [hrom] at hself
  rcases hself with hram | hhigh
  · cases hram
  · omega

end WellFormed

/-! ## Which addresses share a cell -/

/-- Patterns and nametables have no cell in common. -/
theorem not_sharesCell_of_lt {a b : UInt16} (ha : videoAddress a < 0x2000)
    (hb : 0x2000 ≤ videoAddress b) : ¬ c.SharesCell a b := by
  rintro ⟨cell, _, hcell, hcell'⟩
  rcases Banks.mapPpu_cases hcell with ⟨_, offset, rfl⟩ | ⟨hhigh, _⟩
  · rcases Banks.mapPpu_cases hcell' with ⟨hlow, _⟩ | ⟨_, offset', heq⟩
    · omega
    · cases heq
  · omega

/-- Nametable addresses share a cell if they are at the same place of tables that the arrangement
puts on the same page. -/
theorem Reachable.sharesCell_nametables (hc : c.Reachable d) {a b : UInt16}
    (ha : 0x2000 ≤ videoAddress a) (hb : 0x2000 ≤ videoAddress b) :
    c.SharesCell a b ↔ a.toNat % 1024 = b.toNat % 1024 ∧
      c.mirroring.page (a.toNat / 1024 % 4) = c.mirroring.page (b.toNat / 1024 % 4) := by
  -- Fourteen address lines are more than table and place take up.
  have hcell : ∀ addr : UInt16, 0x2000 ≤ videoAddress addr →
      c.banks.mapPpu (videoAddress addr) = .ok (.nametable
        (c.mirroring.page (addr.toNat / 1024 % 4) * 1024 + addr.toNat % 1024)) := by
    intro addr haddr
    have htable : videoAddress addr / 1024 % 4 = addr.toNat / 1024 % 4 := by
      unfold videoAddress
      omega
    have hplace : videoAddress addr % 1024 = addr.toNat % 1024 := by
      unfold videoAddress
      omega
    rw [hc.coherent.mapPpu hc.wellFormed.banks haddr, ← Mirroring.page_mod_four, htable, hplace]
    rfl
  constructor
  · rintro ⟨cell, _, ha', hb'⟩
    have hsame := (hcell a ha).symm.trans (ha'.trans (hb'.symm.trans (hcell b hb)))
    have hoffset := PpuTarget.nametable.inj (Except.ok.inj hsame)
    omega
  · rintro ⟨hplace, hpage⟩
    refine ⟨.nametable _, trivial, hcell a ha, ?_⟩
    rw [hcell b hb, hplace, hpage]

end Cartridge

/-- Video memory behaves as memory. A write leaves the cartridge alone, and a read that follows it
gives the byte written where the two addresses share a cell and what it would have given before
where they do not; pattern ROM ignores writes. Patterns share no cell with nametables. These share
one as the arrangement says, as long as no foreign snapshot has set page and arrangement apart. -/
theorem video_memory_is_memory {c : Cartridge} (hc : c.Driven d) {video : VideoMemory}
    (hvideo : video.Fits d) (a : UInt16) (value : UInt8) :
    (∃ video', Machine.step { cartridge := c, video } (.writeVideo a value) =
        .ok ({ cartridge := c, video := video' }, .done) ∧ video'.Fits d ∧
      (∀ b, ∃ old new next, c.readVideo video b = .ok (old, next) ∧
        c.readVideo video' b = .ok (new, next) ∧
        (c.SharesCell a b → new = value) ∧ (¬ c.SharesCell a b → new = old)) ∧
      (d.usesChrRam = false → Cartridge.videoAddress a < 0x2000 → video' = video)) ∧
    (c.SharesCell a a ↔ d.usesChrRam = true ∨ 0x2000 ≤ Cartridge.videoAddress a) ∧
    (∀ b, Cartridge.videoAddress a < 0x2000 → 0x2000 ≤ Cartridge.videoAddress b →
      ¬ c.SharesCell a b ∧ ¬ c.SharesCell b a) ∧
    (c.Reachable d → ∀ b, 0x2000 ≤ Cartridge.videoAddress a → 0x2000 ≤ Cartridge.videoAddress b →
      (c.SharesCell a b ↔ a.toNat % 1024 = b.toNat % 1024 ∧
        c.mirroring.page (a.toNat / 1024 % 4) = c.mirroring.page (b.toNat / 1024 % 4))) := by
  have hcart := hc.wellFormed
  refine ⟨?_, hcart.sharesCell_self_iff a, ?_, ?_⟩
  · obtain ⟨video', hwrite, hfits⟩ := hcart.exists_writeVideo hvideo a value
    refine ⟨video', Fault.bind_eq_ok_iff.mpr ⟨video', hwrite, rfl⟩, hfits, ?_, ?_⟩
    · intro b
      obtain ⟨old, next, hread⟩ := hcart.exists_readVideo hvideo b
      obtain ⟨new, hnew⟩ := hcart.exists_fetch hfits b
      obtain ⟨hold, hread'⟩ := Cartridge.readVideo_of_fetch hread hnew
      obtain ⟨hshared, hapart⟩ := hcart.fetch_written hvideo (b := b) hwrite
      refine ⟨old, new, next, hread, hread', ?_, ?_⟩
      · intro h
        exact Except.ok.inj (hnew.symm.trans (hshared h))
      · intro h
        exact Except.ok.inj (hnew.symm.trans ((hapart h).trans hold))
    · intro hrom hlow
      exact Except.ok.inj (hwrite.symm.trans (hcart.writeVideo_ignored hvideo hrom hlow value))
  · intro b ha hb
    exact ⟨Cartridge.not_sharesCell_of_lt ha hb,
      fun h => Cartridge.not_sharesCell_of_lt ha hb h.symm⟩
  · intro hreach b ha hb
    exact hreach.sharesCell_nametables ha hb

/-- No registers, and pattern RAM in place of pattern ROM. -/
def Descriptor.nrom : Descriptor := .named "NES-NROM-256" 0x8000 0

theorem Descriptor.nrom_load :
    ∃ c notes, Cartridge.load .nrom (.zeroed 0x8000) #[] = .ok { value := .ok c, notes } ∧
      c.board = .discrete .nrom :=
  Cartridge.load_of_configure (by decide) Array.size_replicate rfl (by decide) ⟨_, _, rfl⟩

/-- A byte of the first table is read back through the mirror of the second, which lies on the same
page; the third and the patterns read as before. -/
theorem video_memory_is_memory_nrom :
    ∃ c notes, Cartridge.load .nrom (.zeroed 0x8000) #[] = .ok { value := .ok c, notes } ∧
      ∃ video, c.writeVideo (.cleared .nrom) 0x2005 7 = .ok video ∧
        (∃ next, c.readVideo video 0x3405 = .ok (7, next)) ∧
        c.readVideo video 0x2805 = c.readVideo (.cleared .nrom) 0x2805 ∧
        c.readVideo video 0x0005 = c.readVideo (.cleared .nrom) 0x0005 := by
  obtain ⟨c, notes, hload, hboard⟩ := Descriptor.nrom_load
  have hc : c.Reachable .nrom := .load hload
  have hmirroring : c.mirroring = .horizontal := by
    apply hc.mirroring_of_fixes
    rw [hboard]
    exact trivial
  have hfits : (VideoMemory.cleared .nrom).Fits .nrom := ⟨rfl, rfl⟩
  obtain ⟨⟨video, hstep, _, hreads, _⟩, _, _, hshares⟩ :=
    video_memory_is_memory hc.driven hfits 0x2005 7
  have hpatterns := (video_memory_is_memory hc.driven hfits 0x0005 7).2.2.1
  obtain ⟨written, hwrite, heq⟩ := Fault.bind_eq_ok_iff.mp hstep
  cases heq
  have hsame : ∀ b, ¬ c.SharesCell 0x2005 b →
      c.readVideo video b = c.readVideo (.cleared .nrom) b := by
    intro b hapart
    obtain ⟨old, new, next, hbefore, hafter, _, hkept⟩ := hreads b
    rw [hbefore, hafter, hkept hapart]
  refine ⟨c, notes, hload, video, hwrite, ?_, hsame 0x2805 ?_, hsame 0x0005 ?_⟩
  · obtain ⟨_, new, next, _, hafter, hnew, _⟩ := hreads 0x3405
    have hshared : c.SharesCell 0x2005 0x3405 := by
      rw [hshares hc 0x3405 (by decide) (by decide), hmirroring]
      decide
    rw [hnew hshared] at hafter
    exact ⟨next, hafter⟩
  · rw [hshares hc 0x2805 (by decide) (by decide), hmirroring]
    decide
  · exact (hpatterns 0x2005 (by decide) (by decide)).2

end GamePak
