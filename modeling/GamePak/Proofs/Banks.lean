import GamePak.Proofs.Window
import GamePak.Registry

/-!
Banks that fit a layout. The windows of a cartridge are cut once, by the descriptor and the layout
of its board, and no selection ever changes how they are cut. A selection that names a page of the
layout always succeeds.
-/

namespace GamePak

namespace Descriptor

/-- What a check of a descriptor has established. -/
theorem Valid.sizes {d : Descriptor} (h : d.Valid) :
    8 * 1024 ≤ d.prgSize ∧ IsPowerOfTwo d.prgSize ∧ IsPowerOfTwo d.patternSize ∧
      (d.wramSize = 0 ∨ IsPowerOfTwo d.wramSize) := by
  unfold Valid flaw? at h
  split at h
  · cases h
  · rename_i hprg
    split at h
    · cases h
    · rename_i hchr
      split at h
      · cases h
      · rename_i hwram
        refine ⟨by omega, ?_, Decidable.not_not.mp hchr, ?_⟩
        · exact Decidable.not_not.mp fun hpow => hprg (Or.inr hpow)
        · by_cases hzero : d.wramSize = 0
          · exact Or.inl hzero
          · exact Or.inr (Decidable.not_not.mp fun hpow => hwram ⟨hzero, hpow⟩)

theorem Valid.prgSize_pos {d : Descriptor} (h : d.Valid) : 0 < d.prgSize := by
  have hsizes := h.sizes
  omega

theorem Valid.patternSize_pos {d : Descriptor} (h : d.Valid) : 0 < d.patternSize :=
  h.sizes.2.2.1.pos

end Descriptor

/-- The program pages reach the end of the address space from 8000 or before it, and the pattern
pages share their 8 KiB without rest. -/
structure Layout.Covers (l : Layout) : Prop where
  prgPageSize : IsPowerOfTwo l.prgPageSize
  prgStart : l.prgStart ≤ 0x8000
  prgStop : l.prgStart + l.prgPages * l.prgPageSize = 0x10000
  chrPageSize : IsPowerOfTwo (8 * 1024 / l.chrPages)
  chrStop : l.chrPages * (8 * 1024 / l.chrPages) = 8 * 1024

theorem BoardKind.layout_covers (k : BoardKind) : k.layout.Covers := by
  cases k with
  | discrete b => cases b <;> constructor <;> decide
  | mmc1 => constructor <;> decide
  | mmc2 => constructor <;> decide
  | mmc3 => constructor <;> decide
  | fcg => constructor <;> decide
  | vrc4 => constructor <;> decide
  | fme7 => constructor <;> decide
  | codemasters => constructor <;> decide
  | vrc3 => constructor <;> decide

namespace Layout.Covers

variable {l : Layout}

theorem prgPages_lt (h : l.Covers) : l.prgPages < Window.pageLimit := by
  have hle : l.prgPages * 1 ≤ l.prgPages * l.prgPageSize :=
    Nat.mul_le_mul_left _ h.prgPageSize.pos
  have hstop := h.prgStop
  have hlimit : 0x10000 < Window.pageLimit := by decide
  omega

theorem chrPages_pos (h : l.Covers) : 0 < l.chrPages := by
  rcases Nat.eq_zero_or_pos l.chrPages with hzero | hpos
  · have hstop := h.chrStop
    rw [hzero, Nat.zero_mul] at hstop
    omega
  · exact hpos

theorem chrPages_lt (h : l.Covers) : l.chrPages < Window.pageLimit := by
  have hle : l.chrPages * 1 ≤ l.chrPages * (8 * 1024 / l.chrPages) :=
    Nat.mul_le_mul_left _ h.chrPageSize.pos
  have hstop := h.chrStop
  have hlimit : 8 * 1024 < Window.pageLimit := by decide
  omega

end Layout.Covers

/-- The page that a selection names is one of the layout, and the bank that it counts back to is
there. -/
def Select.Fits (d : Descriptor) (l : Layout) : Select → Prop
  | .prg page _ => page < l.prgPages
  | .prgFromEnd page _ => page < l.prgPages
  | .prgBefore page back => page < l.prgPages ∧ back < d.prgSize / l.prgPageSize
  | .chr page _ => page < l.chrPages
  | .wram _ => True
  | .mirroring _ => True

namespace Banks

/-- The windows are cut as the descriptor and the layout say. -/
structure Fitted (d : Descriptor) (l : Layout) (b : Banks) : Prop where
  prg : b.prg.IsCut d.prgSize l.prgStart l.prgPageSize l.prgPages
  chr : b.chr.IsCut d.patternSize 0 (8 * 1024 / l.chrPages) l.chrPages
  wram : b.wram.IsCut d.wramSize 0x6000 (8 * 1024) 1
  nametables : b.nametables.IsCut (4 * Window.nametableSize) 0x2000 Window.nametableSize 4

section

variable {d : Descriptor} {l : Layout} {b b' : Banks}

/-! ## Power-on -/

theorem powerOn_fitted (h : powerOn d l = .ok b) : b.Fitted d l := by
  simp only [powerOn, Window.forNametables, Fault.bind_eq_ok_iff] at h
  obtain ⟨prg, hprg, chr, hchr, wram, hwram, tables, ⟨plain, hplain, htables⟩, hb⟩ := h
  cases hb
  refine ⟨Window.create_isCut hprg, ?_, Window.create_isCut hwram,
    (Window.create_isCut hplain).arrange htables⟩
  unfold Window.forChr at hchr
  split at hchr
  · cases hchr
  · exact Window.create_isCut hchr

theorem exists_powerOn (hd : d.Valid) (hl : l.Covers) : ∃ b, powerOn d l = .ok b := by
  obtain ⟨_, hprg, hchr, hwram⟩ := hd.sizes
  have hfour : 4 < Window.pageLimit := by decide
  obtain ⟨prg, hprgCut⟩ := Window.exists_create hl.prgPageSize (Or.inr hprg) hl.prgPages_lt
    l.prgStart
  obtain ⟨chr, hchrCut⟩ := Window.exists_create hl.chrPageSize (Or.inr hchr) hl.chrPages_lt 0
  obtain ⟨wram, hwramCut⟩ := Window.exists_create (show IsPowerOfTwo (8 * 1024) by decide) hwram
    (show 1 < Window.pageLimit by omega) 0x6000
  obtain ⟨plain, hplain⟩ := Window.exists_create
    (show IsPowerOfTwo Window.nametableSize by decide)
    (Or.inr (show IsPowerOfTwo (4 * Window.nametableSize) by decide)) hfour 0x2000
  obtain ⟨tables, htables⟩ := (Window.create_isCut hplain).exists_arrange d.mirroring
  have hforChr : Window.forChr d l.chrPages = .ok chr := by
    unfold Window.forChr
    rw [if_neg (Nat.ne_of_gt hl.chrPages_pos), hchrCut]
  refine ⟨{ prg, chr, wram, nametables := tables, mirroring := d.mirroring }, ?_⟩
  simp only [powerOn, Window.forNametables, Window.forWram, Fault.bind_eq_ok_iff]
  exact ⟨prg, hprgCut, chr, hforChr, wram, hwramCut, tables, ⟨plain, hplain, htables⟩, rfl⟩

/-! ## Selecting -/

theorem setMirroring_fitted (hb : b.Fitted d l) {m : Mirroring}
    (h : b.setMirroring m = .ok b') : b'.Fitted d l := by
  simp only [setMirroring, Fault.bind_eq_ok_iff] at h
  obtain ⟨tables, htables, hb'⟩ := h
  cases hb'
  exact { hb with nametables := hb.nametables.arrange htables }

theorem exists_setMirroring (hb : b.Fitted d l) (m : Mirroring) :
    ∃ b', b.setMirroring m = .ok b' := by
  obtain ⟨tables, htables⟩ := hb.nametables.exists_arrange m
  refine ⟨{ b with nametables := tables, mirroring := m }, ?_⟩
  simp only [setMirroring, Fault.bind_eq_ok_iff]
  exact ⟨tables, htables, rfl⟩

theorem apply_fitted (hb : b.Fitted d l) {s : Select} (h : b.apply s = .ok b') :
    b'.Fitted d l := by
  cases s with
  | prg page bank =>
    obtain ⟨w, hw, heq⟩ := Fault.bind_eq_ok_iff.mp h
    cases heq
    exact { hb with prg := hb.prg.select hw }
  | prgFromEnd page back =>
    obtain ⟨w, hw, heq⟩ := Fault.bind_eq_ok_iff.mp h
    cases heq
    exact { hb with prg := hb.prg.select hw }
  | prgBefore page back =>
    obtain ⟨w, hw, heq⟩ := Fault.bind_eq_ok_iff.mp h
    cases heq
    exact { hb with prg := hb.prg.selectBefore hw }
  | chr page bank =>
    obtain ⟨w, hw, heq⟩ := Fault.bind_eq_ok_iff.mp h
    cases heq
    exact { hb with chr := hb.chr.select hw }
  | wram bank =>
    obtain ⟨w, hw, heq⟩ := Fault.bind_eq_ok_iff.mp h
    cases heq
    exact { hb with wram := hb.wram.select hw }
  | mirroring m => exact setMirroring_fitted hb h

theorem exists_apply (hb : b.Fitted d l) {s : Select} (hs : s.Fits d l) :
    ∃ b', b.apply s = .ok b' := by
  cases s with
  | prg page bank =>
    obtain ⟨w, hw⟩ := hb.prg.exists_select hs bank
    exact ⟨_, Fault.bind_eq_ok_iff.mpr ⟨w, hw, rfl⟩⟩
  | prgFromEnd page back =>
    obtain ⟨w, hw⟩ := hb.prg.exists_select hs (b.prg.lastBank - back)
    exact ⟨_, Fault.bind_eq_ok_iff.mpr ⟨w, hw, rfl⟩⟩
  | prgBefore page back =>
    obtain ⟨w, hw⟩ := hb.prg.exists_selectBefore hs.1 hs.2
    exact ⟨_, Fault.bind_eq_ok_iff.mpr ⟨w, hw, rfl⟩⟩
  | chr page bank =>
    obtain ⟨w, hw⟩ := hb.chr.exists_select hs bank
    exact ⟨_, Fault.bind_eq_ok_iff.mpr ⟨w, hw, rfl⟩⟩
  | wram bank =>
    obtain ⟨w, hw⟩ := hb.wram.exists_select (show 0 < 1 by omega) bank
    exact ⟨_, Fault.bind_eq_ok_iff.mpr ⟨w, hw, rfl⟩⟩
  | mirroring m => exact exists_setMirroring hb m

theorem applyAll_fitted (hb : b.Fitted d l) {selects : List Select}
    (h : b.applyAll selects = .ok b') : b'.Fitted d l := by
  induction selects generalizing b with
  | nil =>
    cases h
    exact hb
  | cons s rest ih =>
    obtain ⟨next, hnext, hrest⟩ := Fault.bind_eq_ok_iff.mp h
    exact ih (apply_fitted hb hnext) hrest

theorem exists_applyAll (hb : b.Fitted d l) {selects : List Select}
    (hs : ∀ s ∈ selects, s.Fits d l) : ∃ b', b.applyAll selects = .ok b' := by
  induction selects generalizing b with
  | nil => exact ⟨b, rfl⟩
  | cons s rest ih =>
    obtain ⟨next, hnext⟩ := exists_apply hb (hs s (List.mem_cons_self ..))
    obtain ⟨last, hlast⟩ := ih (apply_fitted hb hnext)
      (fun r hr => hs r (List.mem_cons_of_mem _ hr))
    exact ⟨last, Fault.bind_eq_ok_iff.mpr ⟨next, hnext, hlast⟩⟩

end

end Banks

end GamePak
