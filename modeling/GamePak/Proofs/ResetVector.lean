import GamePak.Proofs.Standing

/-!
The end of program memory. The processor starts at an address that it finds at the very top of its
address space, so most boards keep the last bank of program memory in the last page, and the
selection that puts it there stands. An address in such a page is as far from the top of the
address space as the byte that it reaches is from the end of program memory. The MMC1 does so in
one of its modes only, and within the half of program memory that it has chosen.
-/

namespace GamePak

/-- A number short of a multiple leaves the modulus less what it is short of. -/
theorem mod_eq_sub_of_add_eq_mul {a gap n times : Nat} (h : a + gap = n * times)
    (hpos : 0 < gap) (hle : gap ≤ n) : a % n = n - gap := by
  obtain ⟨before, rfl⟩ : ∃ before, times = before + 1 := by
    refine ⟨times - 1, ?_⟩
    rcases Nat.eq_zero_or_pos times with hzero | hone
    · rw [hzero, Nat.mul_zero] at h
      omega
    · omega
  have hsum : a = n * before + (n - gap) := by
    rw [Nat.mul_succ] at h
    omega
  rw [hsum, Nat.mul_add_mod, Nat.mod_eq_of_lt (by omega)]

namespace Window.IsCut

variable {w : Window} {size start pageSize pages : Nat}

/-- A place in the bank so many banks before the last one, counted from the end of the buffer. -/
theorem end_place (h : w.IsCut size start pageSize pages) {back offset : Nat}
    (hoffset : offset < pageSize) (hsize : back * pageSize + pageSize - offset ≤ size) :
    (w.lastBank - back) * pageSize + offset % min pageSize size =
      size - (back * pageSize + pageSize - offset) := by
  have hpos := h.isPowerOfTwo_pageSize.pos
  have hpow : IsPowerOfTwo size := h.size_zero_or.resolve_left (by omega)
  have hlast : w.lastBank + 1 = max (size / pageSize) 1 := h.bankCount_eq
  rcases Nat.lt_or_ge size pageSize with hlt | hle
  · -- The buffer repeats inside the page, which is then the last one.
    have hback : back = 0 := by
      rcases Nat.eq_zero_or_pos back with hzero | hone
      · exact hzero
      · have hmul := Nat.mul_le_mul_right pageSize hone
        omega
    obtain ⟨times, htimes⟩ := hpow.dvd_of_le h.isPowerOfTwo_pageSize (Nat.le_of_lt hlt)
    have hsum : offset + (pageSize - offset) = size * times := by omega
    have hmod := mod_eq_sub_of_add_eq_mul hsum (by omega) (by omega)
    rw [Nat.div_eq_of_lt hlt] at hlast
    have hbank : w.lastBank - back = 0 := by omega
    rw [hbank, hback, Nat.min_eq_right (by omega), hmod]
    omega
  · obtain ⟨banks, rfl⟩ := h.isPowerOfTwo_pageSize.dvd_of_le hpow hle
    have hbanks : back < banks := by
      have hmul : pageSize * back < pageSize * banks := by
        rw [Nat.mul_comm pageSize back]
        omega
      exact Nat.lt_of_mul_lt_mul_left hmul
    obtain ⟨rest, rfl⟩ := Nat.exists_eq_add_of_lt hbanks
    have hproduct : pageSize * (back + rest + 1) =
        back * pageSize + rest * pageSize + pageSize := by
      rw [Nat.mul_comm, Nat.add_mul, Nat.add_mul, Nat.one_mul]
    rw [Nat.mul_div_cancel_left _ hpos] at hlast
    have hbank : w.lastBank - back = rest := by omega
    rw [hbank, Nat.min_eq_left hle, Nat.mod_eq_of_lt hoffset, hproduct]
    omega

/-- Where a page so many pages before the last one shows the bank so many banks before the last one,
an address is as far from the end of the window as its byte is from the end of the buffer. -/
theorem resolve_end (h : w.IsCut size start pageSize pages) (hstart : pageSize ∣ start)
    {page back addr : Nat} (hpage : page + back + 1 = pages)
    (hb : w.bank page = .ok (w.lastBank - back)) (hlow : start + page * pageSize ≤ addr)
    (hhigh : addr < start + (page + 1) * pageSize)
    (hsize : start + pages * pageSize - addr ≤ size) :
    w.resolve addr = .ok (size - (start + pages * pageSize - addr)) := by
  obtain ⟨offset, rfl⟩ := Nat.exists_eq_add_of_le hlow
  rw [Nat.succ_mul] at hhigh
  have hpages : pages * pageSize = page * pageSize + back * pageSize + pageSize := by
    rw [← hpage, Nat.add_mul, Nat.add_mul, Nat.one_mul]
  have hdistance : start + pages * pageSize - (start + page * pageSize + offset) =
      back * pageSize + pageSize - offset := by omega
  rw [hdistance] at hsize ⊢
  rw [h.resolve_page (by omega) hstart hb (by omega), h.end_place (by omega) hsize]

end Window.IsCut

namespace Cartridge

/-- The address reaches this byte of program memory, and reading it gives the byte. -/
def ReadsRom (c : Cartridge) (addr : UInt16) (offset : Nat) : Prop :=
  c.board.mapPrg c.banks addr = .ok (.rom offset) ∧
    ∃ _ : offset < c.prg.size, c.read addr = .ok c.prg[offset]

theorem WellFormed.readsRom {d : Descriptor} {c : Cartridge} (h : c.WellFormed d) {addr : UInt16}
    (haddr : 0x8000 ≤ addr.toNat) {offset : Nat}
    (hoffset : c.banks.prg.resolve addr.toNat = .ok offset) : c.ReadsRom addr offset := by
  have hmap : c.board.mapPrg c.banks addr = .ok (.rom offset) := by
    unfold Board.mapPrg
    simp only [hoffset, show ¬ addr.toNat < 0x6000 by omega, show ¬ addr.toNat < 0x8000 by omega,
      if_false]
    rfl
  have hlt : offset < c.prg.size :=
    Fault.of_exists_ok (P := fun target => target.InBounds c) (h.exists_mapPrg addr) hmap
  refine ⟨hmap, hlt, ?_⟩
  simp only [read, hmap, bind, Except.bind, Memory.load, Array.getElem?_eq_getElem hlt]

end Cartridge

theorem BoardKind.layout_aligned (k : BoardKind) :
    k.layout.prgPageSize ∣ k.layout.prgStart := by
  cases k with
  | discrete b => cases b <;> decide
  | _ => decide

namespace Banks

variable {d : Descriptor} {l : Layout} {b : Banks} {page back : Nat}

theorem Stands.bank_prg {bank : Nat} (h : b.Stands (.prg page bank)) (hb : b.Fitted d l) :
    b.prg.bank page = .ok (bank % b.prg.bankCount) := by
  rw [← hb.prg.and_bankMask]
  exact Window.bank_of_select (stands_prg_iff.mp h)

theorem Stands.bank_prgFromEnd (h : b.Stands (.prgFromEnd page back)) (hb : b.Fitted d l) :
    b.prg.bank page = .ok (b.prg.lastBank - back) := by
  have hbank := Window.bank_of_select (stands_prgFromEnd_iff.mp h)
  have hlt : b.prg.lastBank - back < b.prg.bankCount := by
    unfold Window.lastBank Window.bankCount
    omega
  rw [hb.prg.and_bankMask, Nat.mod_eq_of_lt hlt] at hbank
  exact hbank

theorem Stands.bank_prgBefore (h : b.Stands (.prgBefore page back)) (hb : b.Fitted d l) :
    b.prg.bank page = .ok (b.prg.lastBank - back) :=
  (stands_prgFromEnd_iff.mpr (stands_prgBefore_iff.mp h).2).bank_prgFromEnd hb

end Banks

/-! ## Boards that keep the end in place -/

/-- The address from which on a kind of board shows the end of program memory, come what may. -/
def BoardKind.fixedFrom? : BoardKind → Option Nat
  | discrete .nrom => some 0xE000
  | discrete .cnrom => some 0xE000
  | discrete .uxrom => some 0xC000
  | mmc2 => some 0xA000
  | mmc3 => some 0xE000
  | fcg => some 0xC000
  | vrc4 => some 0xE000
  | fme7 => some 0xE000
  | codemasters => some 0xC000
  | vrc3 => some 0xC000
  | _ => none

namespace BoardKind

variable {d : Descriptor} {k : BoardKind} {low : Nat}

/-- Such an address is above work RAM, and the smallest program memory that the board takes is as
large as what lies from there on. -/
theorem fixedFrom_bounds (h : k.fixedFrom? = some low) :
    0x8000 ≤ low ∧ 0x10000 ≤ low + k.prgSizes.1 := by
  cases k with
  | discrete b => cases b <;> cases h <;> decide
  | mmc1 => cases h
  | _ =>
    cases h
    decide

/-- The address lies in a page that shows the bank as far from the last one as the page is. -/
def EndPage (l : Layout) (b : Banks) (addr : Nat) : Prop :=
  ∃ page back, page + back + 1 = l.prgPages ∧ b.prg.bank page = .ok (b.prg.lastBank - back) ∧
    l.prgStart + page * l.prgPageSize ≤ addr ∧ addr < l.prgStart + (page + 1) * l.prgPageSize

/-- Program memory of at most one page has one bank, which is the last one. -/
theorem endPage_of_single {b : Banks} (hsize : d.prgSize ≤ 0x8000)
    (hb : b.Fitted d (Layout.even 1 1)) (hstands : b.Stands (.prg 0 0)) {addr : Nat}
    (haddr : 0x8000 ≤ addr) (htop : addr < 0x10000) : EndPage (Layout.even 1 1) b addr := by
  have hcount : b.prg.lastBank + 1 = max (d.prgSize / 0x8000) 1 := hb.prg.bankCount_eq
  have hbank := hstands.bank_prg hb
  refine ⟨0, 0, rfl, ?_, ?_, ?_⟩
  · rw [hbank, Nat.zero_mod]
    congr 1
    omega
  · simp only [Layout.even]
    omega
  · simp only [Layout.even]
    omega

theorem endPage_of_fixedFrom {b : Banks} (hlow : k.fixedFrom? = some low) (hholds : k.Holds d)
    (hb : b.Fitted d k.layout) (hwired : ∀ s ∈ k.wired, b.Stands s) {addr : Nat}
    (haddr : low ≤ addr) (htop : addr < 0x10000) : EndPage k.layout b addr := by
  have hstop := k.layout_covers.prgStop
  -- On most boards there is one page to look at, the last one.
  have hlast : ∀ page, .prgFromEnd page 0 ∈ k.wired → page + 1 = k.layout.prgPages →
      k.layout.prgStart + page * k.layout.prgPageSize ≤ addr → EndPage k.layout b addr := by
    intro page hmem hpages hpage
    refine ⟨page, 0, hpages, (hwired _ hmem).bank_prgFromEnd hb, hpage, ?_⟩
    rw [hpages, hstop]
    exact htop
  cases k with
  | discrete chip =>
    cases chip with
    | nrom =>
      cases hlow
      exact endPage_of_single hholds.2 hb (hwired _ (List.mem_singleton_self _)) (by omega) htop
    | cnrom =>
      cases hlow
      exact endPage_of_single hholds.2 hb (hwired _ (List.mem_singleton_self _)) (by omega) htop
    | uxrom =>
      cases hlow
      exact hlast 1 (List.mem_singleton_self _) rfl haddr
    | axrom => cases hlow
    | colorDreams => cases hlow
    | gxrom => cases hlow
  | mmc1 => cases hlow
  | mmc2 =>
    cases hlow
    have hpages : ∀ page back, .prgBefore page back ∈ mmc2.wired → page + back + 1 = 4 →
        0x8000 + page * 0x2000 ≤ addr → addr < 0x8000 + (page + 1) * 0x2000 →
        EndPage mmc2.layout b addr :=
      fun page back hmem hpage hfrom hto =>
        ⟨page, back, hpage, (hwired _ hmem).bank_prgBefore hb, hfrom, hto⟩
    by_cases hthird : 0xE000 ≤ addr
    · exact hpages 3 0 (by decide) rfl hthird htop
    · by_cases hsecond : 0xC000 ≤ addr
      · exact hpages 2 1 (by decide) rfl hsecond (by omega)
      · exact hpages 1 2 (by decide) rfl haddr (by omega)
  | mmc3 =>
    cases hlow
    exact hlast 3 (List.mem_singleton_self _) rfl haddr
  | fcg =>
    cases hlow
    exact hlast 1 (List.mem_singleton_self _) rfl haddr
  | vrc4 =>
    cases hlow
    exact hlast 3 (List.mem_singleton_self _) rfl haddr
  | fme7 =>
    cases hlow
    exact hlast 4 (List.mem_singleton_self _) rfl haddr
  | codemasters =>
    cases hlow
    exact hlast 1 (List.mem_singleton_self _) rfl haddr
  | vrc3 =>
    cases hlow
    exact hlast 1 (List.mem_singleton_self _) rfl haddr

end BoardKind

namespace Cartridge.Reachable

variable {d : Descriptor} {c : Cartridge}

theorem readsRom_end (hc : c.Reachable d) {low : Nat}
    (hlow : c.board.kind.fixedFrom? = some low) {addr : UInt16} (haddr : low ≤ addr.toNat) :
    c.ReadsRom addr (d.prgSize - (0x10000 - addr.toNat)) := by
  have hcart := hc.wellFormed
  have hholds := hc.wired.holds
  have htop : addr.toNat < 0x10000 := addr.toNat_lt
  have hstop := c.board.kind.layout_covers.prgStop
  obtain ⟨habove, hreach⟩ := BoardKind.fixedFrom_bounds hlow
  have hsize : 0x10000 - addr.toNat ≤ d.prgSize := by
    have hmin := hholds.1
    omega
  obtain ⟨page, back, hpage, hbank, hfrom, hto⟩ := BoardKind.endPage_of_fixedFrom hlow hholds
    hcart.banks (fun s hs => hc.stands s (List.mem_append_right _ hs)) haddr htop
  have hresolve := hcart.banks.prg.resolve_end c.board.kind.layout_aligned hpage hbank hfrom hto
    (by rw [hstop]; exact hsize)
  rw [hstop] at hresolve
  exact hcart.readsRom (by omega) hresolve

end Cartridge.Reachable

/-! ## The MMC1 -/

namespace Mmc1

/-- Where the part of program memory ends in which the MMC1 switches: a 256 KiB half of the largest
program memory, or all of a smaller one. -/
def prgEnd (r : Mmc1) (d : Descriptor) : Nat :=
  if d.prgSize = 0x80000 then if r.chrSelect0.toNat.testBit 4 then 0x80000 else 0x40000
  else d.prgSize

/-- The sixteenth bank of the half in use is the last one before the end. -/
theorem lastBank_end {d : Descriptor} {r : Mmc1} {b : Banks} (hholds : BoardKind.mmc1.Holds d)
    (hb : b.Fitted d layout) (houter : r.outerPrg = (d.prgSize == 0x80000)) :
    ((r.outerBank + 15) % b.prg.bankCount + 1) * 0x4000 = r.prgEnd d := by
  have hlow : 0x8000 ≤ d.prgSize := hholds.1
  have hhigh : d.prgSize ≤ 0x80000 := hholds.2
  have hcount : b.prg.bankCount = max (d.prgSize / 0x4000) 1 := hb.prg.bankCount_eq
  unfold prgEnd outerBank
  rw [houter, hcount]
  by_cases hlarge : d.prgSize = 0x80000
  · rw [hlarge]
    cases r.chrSelect0.toNat.testBit 4 <;> rfl
  · have hpow : IsPowerOfTwo d.prgSize := hb.prg.size_zero_or.resolve_left (by omega)
    have hhalf : 2 * d.prgSize ≤ 0x80000 := hpow.two_mul_le (by decide) (by omega)
    obtain ⟨banks, hbanks⟩ : 0x4000 ∣ d.prgSize :=
      IsPowerOfTwo.dvd_of_le (by decide) hpow (by omega)
    obtain ⟨times, htimes⟩ : d.prgSize ∣ 0x40000 := hpow.dvd_of_le (by decide) (by omega)
    have hsixteen : 15 + 1 = banks * times := by
      rw [hbanks, Nat.mul_assoc] at htimes
      omega
    have hmod : 15 % banks = banks - 1 :=
      mod_eq_sub_of_add_eq_mul hsixteen (by omega) (by omega)
    have hmax : max (d.prgSize / 0x4000) 1 = banks := by omega
    rw [if_neg hlarge, hmax, beq_false_of_ne hlarge, Bool.false_and, if_neg (by simp), hmod]
    omega

end Mmc1

theorem Cartridge.Reachable.readsRom_fixLast {d : Descriptor} {c : Cartridge} (hc : c.Reachable d)
    {r : Mmc1} (hboard : c.board = .mmc1 r) (hmode : r.prgMode = .fixLast) {addr : UInt16}
    (haddr : 0xC000 ≤ addr.toNat) : c.ReadsRom addr (r.prgEnd d - (0x10000 - addr.toNat)) := by
  have hcart := hc.wellFormed
  have hfitted := hcart.banks
  have hwired := hc.wired
  have hstands := hc.stands (.prg 1 (r.outerBank + 15))
  rw [hboard] at hfitted hwired hstands
  have hcut : c.banks.prg.IsCut d.prgSize 0x8000 0x4000 2 := hfitted.prg
  have hbank := (hstands (by simp [Board.standing, Board.selects, Mmc1.selects, Mmc1.prgSelects,
    hmode])).bank_prg hfitted
  have hlow : 0x8000 ≤ d.prgSize := hwired.holds.1
  have htop : addr.toNat < 0x10000 := addr.toNat_lt
  obtain ⟨offset, hoffset⟩ := Nat.exists_eq_add_of_le haddr
  have hresolve : c.banks.prg.resolve (0xC000 + offset) = _ :=
    hcut.resolve_page (by omega) (by decide) hbank (by omega)
  rw [Nat.min_eq_left (by omega), Nat.mod_eq_of_lt (show offset < 0x4000 by omega)] at hresolve
  refine hcart.readsRom (by omega) ?_
  rw [hoffset, hresolve, ← Mmc1.lastBank_end hwired.holds hfitted hwired.outerPrg]
  congr 1
  omega

/-- The end of program memory stays where the processor looks for its first address. On MMC1 it
does so in the mode that fixes the last bank, as the end of the part in use. -/
theorem reset_vector_stays {d : Descriptor} {c : Cartridge} (hc : c.Reachable d) :
    (∀ low, c.board.kind.fixedFrom? = some low → ∀ addr : UInt16, low ≤ addr.toNat →
      c.ReadsRom addr (d.prgSize - (0x10000 - addr.toNat))) ∧
    (∀ r, c.board = .mmc1 r → r.prgMode = .fixLast → ∀ addr : UInt16, 0xC000 ≤ addr.toNat →
      c.ReadsRom addr (r.prgEnd d - (0x10000 - addr.toNat))) :=
  ⟨fun _ hlow _ haddr => hc.readsRom_end hlow haddr,
    fun _ hboard hmode _ haddr => hc.readsRom_fixLast hboard hmode haddr⟩

/-- MMC1 with the largest program memory. -/
def Descriptor.surom : Descriptor := .named "NES-SUROM" 0x80000 0

theorem Descriptor.surom_load :
    ∃ c notes, Cartridge.load .surom (.zeroed 0x80000) #[] = .ok { value := .ok c, notes } ∧
      c.board = .mmc1 { outerPrg := true, wramBanks := 0 } :=
  Cartridge.load_of_configure (by decide) Array.size_replicate rfl (by decide) ⟨_, _, rfl⟩

/-- On one board the second last bank has been moved to the front; on the other, five bits have
put the second half of program memory in place of the first. -/
theorem reset_vector_stays_tlrom_surom :
    (∃ c notes, Cartridge.load .tlrom (.zeroed 0x8000) #[] = .ok { value := .ok c, notes } ∧
      ∃ c', c.writeAll [(0x8000, 0x46), (0x8001, 3)] = .ok c' ∧ c'.ReadsRom 0xFFFC 0x7FFC) ∧
    ∃ c notes, Cartridge.load .surom (.zeroed 0x80000) #[] = .ok { value := .ok c, notes } ∧
      c.ReadsRom 0xFFFC 0x3FFFC ∧
      ∃ c', c.writeAll [(0xA000, 0), (0xA000, 0), (0xA000, 0), (0xA000, 0), (0xA000, 1)] = .ok c' ∧
        c'.ReadsRom 0xFFFC 0x7FFFC := by
  constructor
  · obtain ⟨c, notes, hload, hboard⟩ := Descriptor.tlrom_load
    obtain ⟨c', hwritten, hreachable, hafter, _⟩ :=
      Cartridge.Reachable.exists_writeAll (.load hload) [(0x8000, 0x46), (0x8001, 3)]
    rw [hboard] at hafter
    have hkind : c'.board.kind = .mmc3 := congrArg Board.kind (Except.ok.inj hafter).symm
    refine ⟨c, notes, hload, c', hwritten, ?_⟩
    exact (reset_vector_stays hreachable).1 0xE000 (by rw [hkind]; rfl) 0xFFFC (by decide)
  · obtain ⟨c, notes, hload, hboard⟩ := Descriptor.surom_load
    obtain ⟨c', hwritten, hreachable, hafter, _⟩ :=
      Cartridge.Reachable.exists_writeAll (.load hload)
        [(0xA000, 0), (0xA000, 0), (0xA000, 0), (0xA000, 0), (0xA000, 1)]
    rw [hboard] at hafter
    refine ⟨c, notes, hload, ?_, c', hwritten, ?_⟩
    · exact (reset_vector_stays (.load hload)).2 _ hboard rfl 0xFFFC (by decide)
    · exact (reset_vector_stays hreachable).2 _ (Except.ok.inj hafter).symm rfl 0xFFFC (by decide)

end GamePak
