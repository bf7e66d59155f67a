import GamePak.Proofs.Coverage

/-!
How much of pattern memory can be shown. On every kind of board the processor can put any bank into
the first page, as far as the registers count, and with one exception they count as far as the
largest pattern memory that the board takes. The exception is the wiring of mapper 22: it leaves out
the lowest line of a nine-bit register, so that half of the largest memory is never shown.
-/

namespace GamePak

variable {d : Descriptor}

/-- Bytes in a page of pattern memory. -/
def Layout.chrPageSize (l : Layout) : Nat := 8 * 1024 / l.chrPages

/-- The largest pattern memory that a kind of board takes. -/
def BoardKind.patternLimit : BoardKind → Nat
  | discrete .cnrom => 0x200000
  | discrete .colorDreams => 0x20000
  | discrete .gxrom => 0x8000
  | discrete _ => 0x2000
  | mmc1 => 0x20000
  | mmc2 => 0x20000
  | mmc3 => 0x40000
  | fcg => 0x40000
  | vrc4 => 0x80000
  | fme7 => 0x40000
  | codemasters => 0x2000
  | vrc3 => 0x2000

theorem BoardKind.patternSize_le {k : BoardKind} {reply : Reply Board}
    (h : k.start? d = some reply) : d.patternSize ≤ k.patternLimit := by
  cases k with
  | discrete b =>
    obtain ⟨own, hown, _⟩ := Option.map_eq_some_iff.mp h
    obtain ⟨⟨_, hsizes⟩, _⟩ := Option.ite_none_right_eq_some.mp hown
    cases b <;> simp only [Discrete.SizesFit] at hsizes <;> simp only [patternLimit] <;> omega
  | mmc1 =>
    obtain ⟨own, hown, _⟩ := Option.map_eq_some_iff.mp h
    obtain ⟨⟨_, _, _, hsize, _⟩, _⟩ := Option.ite_none_right_eq_some.mp hown
    exact hsize
  | mmc2 =>
    obtain ⟨own, hown, _⟩ := Option.map_eq_some_iff.mp h
    obtain ⟨⟨_, _, hsize⟩, _⟩ := Option.ite_none_right_eq_some.mp hown
    exact hsize
  | mmc3 | fcg | fme7 =>
    obtain ⟨own, hown, _⟩ := Option.map_eq_some_iff.mp h
    obtain ⟨⟨_, _, _, hsize⟩, _⟩ := Option.ite_none_right_eq_some.mp hown
    exact hsize
  | vrc4 =>
    obtain ⟨own, hown, _⟩ := Option.map_eq_some_iff.mp h
    obtain ⟨mapper, _, hown⟩ := Option.bind_eq_some_iff.mp hown
    obtain ⟨⟨_, _, hsize⟩, _⟩ := Option.ite_none_right_eq_some.mp hown
    exact hsize
  | codemasters | vrc3 =>
    obtain ⟨own, hown, _⟩ := Option.map_eq_some_iff.mp h
    obtain ⟨⟨_, _, _, hsize⟩, _⟩ := Option.ite_none_right_eq_some.mp hown
    exact Nat.le_of_eq hsize

theorem Board.Wired.patternSize_le {b : Board} (h : b.Wired d) :
    d.patternSize ≤ b.kind.patternLimit := by
  obtain ⟨reply, hstart, _⟩ := h
  exact BoardKind.patternSize_le hstart

/-! ## The split registers of the VRC4 -/

namespace Vrc4

variable {r : Vrc4}

/-- The pattern registers hold nine bits, as the two parts that can be written leave them. -/
def Narrow (r : Vrc4) : Prop := ∀ page, (r.chrSelects.read page).toNat < 512

theorem toNat_setBankLow (bank : UInt16) (h : bank.toNat < 512) (value : UInt8) :
    (setBankLow bank value).toNat = bank.toNat / 16 * 16 + value.toNat % 16 := by
  simp only [setBankLow, UInt16.toNat_add, UInt16.toNat_mul, UInt16.toNat_div, UInt16.toNat_mod,
    UInt8.toNat_toUInt16, UInt16.reduceToNat]
  omega

theorem toNat_setBankHigh (bank : UInt16) (h : bank.toNat < 512) (value : UInt8) :
    (setBankHigh bank value).toNat = value.toNat % 32 * 16 + bank.toNat % 16 := by
  simp only [setBankHigh, UInt16.toNat_add, UInt16.toNat_mul, UInt16.toNat_div, UInt16.toNat_mod,
    UInt8.toNat_toUInt16, UInt16.reduceToNat]
  omega

theorem writeChr_narrow (h : r.Narrow) (page : Nat) (high : Bool) (value : UInt8) :
    (r.writeChr page high value).registers.Narrow := by
  intro other
  have hold := h page
  simp only [writeChr, RegisterFile.read_write]
  split
  · split
    · rw [toNat_setBankHigh _ hold]
      omega
    · rw [toNat_setBankLow _ hold]
      omega
  · exact h other

theorem write_narrow (h : r.Narrow) (addr : Nat) (value : UInt8) :
    (r.write addr value).registers.Narrow := by
  unfold write
  simp only
  repeat' split
  all_goals first
    | exact h
    | exact writeChr_narrow h _ _ _

/-- The first pattern register takes its low bits at the start of its block. -/
theorem write_chrLow (r : Vrc4) (value : UInt8) :
    r.write 0xB000 value = r.writeChr 0 false value := by
  have hlines : lines r.mapper 0xB000 = (false, false) := by
    unfold lines
    repeat' split
    all_goals rfl
  simp [write, register, hlines]

/-- Where it takes the high bits, which depends on the wiring. -/
def chrHigh (r : Vrc4) : UInt16 := if r.mapper = 23 then 0xB001 else 0xB002

theorem write_chrHigh (r : Vrc4) (value : UInt8) :
    r.write r.chrHigh.toNat value = r.writeChr 0 true value := by
  by_cases hwiring : r.mapper = 23
  · have haddr : r.chrHigh.toNat = 0xB001 := by simp [chrHigh, hwiring]
    have hlines : lines r.mapper 0xB001 = (true, false) := by
      rw [hwiring]
      rfl
    simp [write, register, haddr, hlines]
  · have haddr : r.chrHigh.toNat = 0xB002 := by simp [chrHigh, hwiring]
    have hlines : lines r.mapper 0xB002 = (true, false) := by
      unfold lines
      rw [if_neg hwiring]
      repeat' split
      all_goals rfl
    simp [write, register, haddr, hlines]

theorem read_writeChr (r : Vrc4) (page : Nat) (high : Bool) (value : UInt8) :
    (r.writeChr page high value).registers.chrSelects.read page =
      if high then setBankHigh (r.chrSelects.read page) value
      else setBankLow (r.chrSelects.read page) value := by
  simp only [writeChr, RegisterFile.read_write, if_true]

/-- A register that has been written in both parts holds them and nothing else. -/
theorem toNat_read_parts (h : r.Narrow) (page : Nat) (low high : UInt8) :
    (((r.writeChr page false low).registers.writeChr page true high).registers.chrSelects.read
      page).toNat = high.toNat % 32 * 16 + low.toNat % 16 := by
  rw [read_writeChr, if_pos rfl, toNat_setBankHigh _ (writeChr_narrow h page false low page),
    read_writeChr, if_neg (by decide), toNat_setBankLow _ (h page)]
  omega

/-- Two writes put any nine bits into the first pattern register. -/
theorem brings_chr (h : r.Narrow) {n : Nat} (hn : n < 512) :
    (Board.vrc4 r).Brings (.chr 0 (if r.mapper = 22 then n / 2 else n)) := by
  let low : Reply Vrc4 := r.writeChr 0 false (.ofNat (n % 16))
  let high : Reply Vrc4 := low.registers.writeChr 0 true (.ofNat (n / 16))
  have hlow : (Board.vrc4 r).write 0xB000 (.ofNat (n % 16)) = .ok (low.map .vrc4) :=
    congrArg (Except.ok ∘ Reply.map Board.vrc4) (r.write_chrLow _)
  have hhigh : (Board.vrc4 low.registers).write low.registers.chrHigh (.ofNat (n / 16)) =
      .ok (high.map .vrc4) :=
    congrArg (Except.ok ∘ Reply.map Board.vrc4) (low.registers.write_chrHigh _)
  have hboth : (high.registers.chrSelects.read 0).toNat = n := by
    rw [toNat_read_parts h, UInt8.toNat_ofNat_of_lt' (show n % 16 < 256 by omega),
      UInt8.toNat_ofNat_of_lt' (show n / 16 < 256 by omega)]
    omega
  have hselect : high.registers.chrSelect 0 = .chr 0 (if r.mapper = 22 then n / 2 else n) := by
    simp only [chrSelect, chrBank, hboth]
    rfl
  have hmem : high.registers.chrSelect 0 ∈ high.registers.selects :=
    List.mem_append_right _ (List.mem_map_of_mem (by decide))
  rw [hselect] at hmem
  exact .after hlow (.after hhigh (.of_standing (List.mem_append_left _ hmem)))

end Vrc4

/-- The pattern registers of the board hold nine bits, if it is one that has them split. -/
def Board.Narrow : Board → Prop
  | vrc4 r => r.Narrow
  | _ => True

theorem Board.mapTimer_narrow {b : Board} (h : b.Narrow) (f : Timer → Timer) :
    (b.mapTimer f).Narrow := by
  cases b <;> exact h

theorem narrow_persists : Persists d fun board _ => board.Narrow where
  start := by
    intro k reply plain banks hstart _ _
    cases k with
    | vrc4 =>
      obtain ⟨own, hown, rfl⟩ := Option.map_eq_some_iff.mp hstart
      obtain ⟨_, mapper, _, r, rfl, rfl⟩ := Vrc4.start?_eq_some hown
      intro page
      simp [RegisterFile.read]
    | _ =>
      obtain ⟨own, _, rfl⟩ := Option.map_eq_some_iff.mp hstart
      trivial
  write := by
    intro board banks banks' addr value reply h hreply _
    cases board with
    | vrc4 r =>
      cases hreply
      exact r.write_narrow h addr.toNat value
    | mmc1 r =>
      obtain ⟨own, _, heq⟩ := Fault.bind_eq_ok_iff.mp hreply
      cases heq
      trivial
    | _ =>
      cases hreply
      trivial
  afterRead := by
    intro board banks banks' addr h _
    cases board <;> exact h
  clock := by
    intro board board' banks h hclock
    rcases Board.clock_cases hclock with ⟨rfl, _⟩ | ⟨_, t, rolled, t', _, _, rfl⟩
    · exact h
    · exact board.mapTimer_narrow h _
  scanline := by
    intro board board' banks h hscanline
    cases board with
    | mmc3 r =>
      obtain ⟨own, _, heq⟩ := Fault.bind_eq_ok_iff.mp hscanline
      cases heq
      trivial
    | _ =>
      cases hscanline
      exact h
  acknowledge := by
    intro board banks h
    exact board.mapTimer_narrow h _

/-! ## Every board -/

/-- Five bits hold a number below 32. -/
theorem Word.toNat_fiveBits {n : Nat} (hn : n < 32) : (UInt8.ofNat n % 32).toNat = n := by
  rw [UInt8.toNat_mod, UInt8.toNat_ofNat_of_lt' (show n < 256 by omega)]
  exact Nat.mod_eq_of_lt hn

/-- In the mode with two banks, the first pattern register is that of the first page. -/
theorem Mmc1.brings_chr (r : Mmc1) {bank : Nat} (hbank : bank < 32) :
    (Board.mmc1 r).Brings (.chr 0 bank) := by
  let halved : Mmc1 := (r.reset.registers.commit 0x8000 (.ofNat 0x10)).registers
  let filled : Mmc1 := (halved.commit 0xA000 (.ofNat bank)).registers
  have hshown : filled.chrSelect0.toNat = bank := Word.toNat_fiveBits hbank
  have hselect : .chr 0 filled.chrSelect0.toNat ∈ filled.chrSelects := List.mem_cons_self ..
  rw [hshown] at hselect
  exact r.brings 0x8000 0xA000 (by decide) (by decide) (by decide) hbank
    (List.mem_append_left _ hselect)

/-- Whichever of the two registers counts, both have the bank. -/
theorem Mmc2.brings_chr (r : Mmc2) {bank : Nat} (hbank : bank < 32) :
    (Board.mmc2 r).Brings (.chr 0 bank) := by
  let once : Mmc2 := { r with low.fd := .ofNat bank % 32 }
  let both : Mmc2 := { once with low.fe := .ofNat bank % 32 }
  have hfd : (Board.mmc2 r).write 0xB000 (.ofNat bank) =
      .ok { registers := .mmc2 once, selects := once.selects } := rfl
  have hfe : (Board.mmc2 once).write 0xC000 (.ofNat bank) =
      .ok { registers := .mmc2 both, selects := both.selects } := rfl
  have hshown : both.low.bank = bank := by
    unfold Half.bank
    split
    · exact Word.toNat_fiveBits hbank
    · exact Word.toNat_fiveBits hbank
  have hselect : .chr 0 both.low.bank ∈ both.selects := List.mem_cons_self ..
  rw [hshown] at hselect
  exact .after hfd (.after hfe (.of_standing (List.mem_append_left _ hselect)))

/-- In the mode with the small banks first, the third register is that of the first page. -/
theorem Mmc3.brings_chr (r : Mmc3) {bank : Nat} (hbank : bank < 256) :
    (Board.mmc3 r).Brings (.chr 0 bank) := by
  refine r.brings 0x82 hbank fun filled hselect hshown => List.mem_append_right _ ?_
  have hswapped : filled.chrSwapped = true := by
    rw [chrSwapped, hselect]
    rfl
  have hsame : filled.bank 2 = filled.bank (0x82 : UInt8).toNat := rfl
  rw [← hshown, ← hsame]
  simp [chrSelects, hswapped]

theorem Fcg.brings_chr (r : Fcg) {bank : Nat} (hbank : bank < 256) :
    (Board.fcg r).Brings (.chr 0 bank) := by
  obtain ⟨addr, hdecodes, hregister⟩ := r.exists_decoded (show 0 < 16 by decide)
  have hwrite : r.write addr.toNat (.ofNat bank) =
      { registers := r, selects := [.chr 0 (UInt8.ofNat bank).toNat] } := by
    unfold write
    rw [if_neg (not_not_intro hdecodes), hregister]
    rfl
  exact .of_write addr (.ofNat bank) (congrArg (Except.ok ∘ Reply.map Board.fcg) hwrite) rfl
    (UInt8.toNat_ofNat_of_lt' hbank)

namespace Board

variable {b : Board}

/-- The wiring leaves out a line of the pattern registers. -/
def DropsLine : Board → Prop
  | vrc4 r => r.mapper = 22
  | _ => False

theorem DropsLine.exists_vrc4 (h : b.DropsLine) : ∃ r, b = vrc4 r ∧ r.mapper = 22 := by
  cases b with
  | vrc4 r => exact ⟨r, rfl, h⟩
  | _ => exact h.elim

/-- The descriptor says which wiring it is. -/
theorem Wired.dropsLine {b b' : Board} (h : b.Wired d) (h' : b'.Wired d)
    (hkind : b.kind = b'.kind) (hdrops : b.DropsLine) : b'.DropsLine := by
  obtain ⟨reply, hstart, hreply⟩ := h
  obtain ⟨reply', hstart', hreply'⟩ := h'
  rw [hkind, hstart'] at hstart
  cases hstart
  have hsame : b.soldered = b'.soldered := hreply.symm.trans hreply'
  have hsoldered : ∀ b : Board, b.soldered.DropsLine = b.DropsLine := by
    intro b
    cases b <;> rfl
  rw [← hsoldered, ← hsame, hsoldered]
  exact hdrops

theorem Wired.brings_chr (h : b.Wired d) (hnarrow : b.Narrow)
    (hlarge : b.kind.layout.chrPageSize < d.patternSize) {bank : Nat}
    (hbank : bank * b.kind.layout.chrPageSize < d.patternSize) (hline : b.DropsLine → bank < 256) :
    b.Brings (.chr 0 bank) := by
  have hlimit := h.patternSize_le
  have hmax := Nat.lt_of_lt_of_le hbank hlimit
  have hbyte : ∀ n < 256, (UInt8.ofNat n).toNat = n := fun n hn => UInt8.toNat_ofNat_of_lt' hn
  -- Boards that take a single page of pattern memory have nothing to select.
  have hsingle : ¬ b.kind.patternLimit ≤ b.kind.layout.chrPageSize := by omega
  cases b with
  | discrete chip =>
    cases chip with
    | nrom | uxrom | axrom => exact absurd (show 0x2000 ≤ 8 * 1024 / 1 by decide) hsingle
    | cnrom =>
      have hcount : bank * (8 * 1024 / 1) < 0x200000 := hmax
      exact .of_write 0x8000 (.ofNat bank) rfl rfl (hbyte bank (by omega))
    | colorDreams =>
      have hcount : bank * (8 * 1024 / 1) < 0x20000 := hmax
      exact .of_write 0x8000 (.ofNat (bank * 16)) rfl rfl
        (by rw [hbyte (bank * 16) (by omega)]; omega)
    | gxrom =>
      have hcount : bank * (8 * 1024 / 1) < 0x8000 := hmax
      exact .of_write 0x8000 (.ofNat bank) rfl rfl (by rw [hbyte bank (by omega)]; omega)
  | mmc1 r =>
    have hcount : bank * (8 * 1024 / 2) < 0x20000 := hmax
    exact r.brings_chr (by omega)
  | mmc2 r =>
    have hcount : bank * (8 * 1024 / 2) < 0x20000 := hmax
    exact r.brings_chr (by omega)
  | mmc3 r =>
    have hcount : bank * (8 * 1024 / 8) < 0x40000 := hmax
    exact r.brings_chr (by omega)
  | fcg r =>
    have hcount : bank * (8 * 1024 / 8) < 0x40000 := hmax
    exact r.brings_chr (by omega)
  | vrc4 r =>
    have hcount : bank * (8 * 1024 / 8) < 0x80000 := hmax
    by_cases hmapper : r.mapper = 22
    · have hfew := hline hmapper
      have hbrings := Vrc4.brings_chr hnarrow (show 2 * bank < 512 by omega)
      rw [if_pos hmapper, Nat.mul_div_cancel_left bank (by decide)] at hbrings
      exact hbrings
    · have hbrings := Vrc4.brings_chr hnarrow (show bank < 512 by omega)
      rw [if_neg hmapper] at hbrings
      exact hbrings
  | fme7 r =>
    have hcount : bank * (8 * 1024 / 8) < 0x40000 := hmax
    refine .after (show (fme7 r).write 0x8000 0 = _ from rfl) ?_
    exact .of_write 0xA000 (.ofNat bank) rfl rfl (hbyte bank (by omega))
  | codemasters r => exact absurd (show 0x2000 ≤ 8 * 1024 / 1 by decide) hsingle
  | vrc3 r => exact absurd (show 0x2000 ≤ 8 * 1024 / 1 by decide) hsingle

end Board

/-! ## What is shown -/

theorem Banks.Stands.bank_chr {l : Layout} {b : Banks} {page bank : Nat}
    (h : b.Stands (.chr page bank)) (hb : b.Fitted d l) :
    b.chr.bank page = .ok (bank % b.chr.bankCount) := by
  rw [← hb.chr.and_bankMask]
  exact Window.bank_of_select (stands_chr_iff.mp h)

namespace Cartridge

variable {c : Cartridge}

/-- The bank in the first page is seen byte by byte. -/
theorem WellFormed.mapPpu_first (h : c.WellFormed d) {bank offset : Nat}
    (hbank : c.banks.chr.bank 0 = .ok bank) (hoffset : offset < c.board.kind.layout.chrPageSize)
    (hsize : bank * c.board.kind.layout.chrPageSize + offset < d.patternSize) :
    offset < 0x2000 ∧ c.banks.mapPpu offset =
      .ok (.pattern (bank * c.board.kind.layout.chrPageSize + offset)) := by
  have hcut : c.banks.chr.IsCut d.patternSize 0 c.board.kind.layout.chrPageSize _ := h.banks.chr
  have hlow : offset < 0x2000 := Nat.lt_of_lt_of_le hoffset (Nat.div_le_self ..)
  have hresolve := hcut.resolve_page (by omega) (Nat.dvd_zero _) hbank hoffset
  rw [Nat.mod_eq_of_lt (Nat.lt_min.mpr ⟨hoffset, by omega⟩), Nat.zero_mul, Nat.zero_add] at hresolve
  refine ⟨hlow, ?_⟩
  simp only [Banks.mapPpu, hlow, if_true, hresolve, bind, Except.bind]
  rfl

namespace Reachable

theorem narrow (hc : c.Reachable d) : c.board.Narrow := narrow_persists.reachable hc

/-- Writes bring up every byte that the registers can count to. -/
theorem exists_pattern (hc : c.Reachable d) {i : Nat} (hi : i < d.patternSize)
    (hline : c.board.DropsLine → i < 0x40000) :
    ∃ writes c' addr, c.writeAll writes = .ok c' ∧ addr < 0x2000 ∧
      c'.banks.mapPpu addr = .ok (.pattern i) := by
  have hcart := hc.wellFormed
  have hcut : c.banks.chr.IsCut d.patternSize 0 c.board.kind.layout.chrPageSize _ := hcart.banks.chr
  have hpos := hcut.isPowerOfTwo_pageSize.pos
  by_cases hlarge : c.board.kind.layout.chrPageSize < d.patternSize
  · have hbank := Nat.lt_of_le_of_lt
      (Nat.div_mul_le_self i c.board.kind.layout.chrPageSize) hi
    have hfew : c.board.DropsLine → i / c.board.kind.layout.chrPageSize < 256 := by
      intro hdrops
      have hlow := hline hdrops
      obtain ⟨r, hboard, _⟩ := hdrops.exists_vrc4
      rw [hboard]
      change i / (8 * 1024 / 8) < 256
      omega
    obtain ⟨writes, c', hwritten, hreachable, _, hstands⟩ :=
      hc.exists_shown (hc.wired.brings_chr hc.narrow hlarge hbank hfew)
    have hafter := hreachable.wellFormed
    have hkind : c.board.kind = c'.board.kind := hcart.chosen.unique hafter.chosen
    rw [hkind] at hstands hbank hpos
    have hcut' : c'.banks.chr.IsCut d.patternSize 0 c'.board.kind.layout.chrPageSize _ :=
      hafter.banks.chr
    have hshown := hstands.bank_chr hafter.banks
    rw [Nat.mod_eq_of_lt (hcut'.lt_bankCount hbank)] at hshown
    have hplace := Nat.div_add_mod' i c'.board.kind.layout.chrPageSize
    obtain ⟨hlow, hmap⟩ := hafter.mapPpu_first hshown (Nat.mod_lt i hpos) (by rwa [hplace])
    rw [hplace] at hmap
    exact ⟨writes, c', _, hwritten, hlow, hmap⟩
  · have hfirst := hcut.bank_of_le (Nat.le_of_not_lt hlarge) c.board.kind.layout_covers.chrPages_pos
    obtain ⟨hlow, hmap⟩ := hcart.mapPpu_first hfirst (show i < _ by omega) (by omega)
    rw [Nat.zero_mul, Nat.zero_add] at hmap
    exact ⟨[], c, i, rfl, hlow, hmap⟩

theorem dropsLine (hc : c.Reachable d) {c' : Cartridge} (hc' : c'.Reachable d)
    (hdrops : c.board.DropsLine) : c'.board.DropsLine :=
  hc.wired.dropsLine hc'.wired (hc.wellFormed.chosen.unique hc'.wellFormed.chosen) hdrops

/-- Pattern memory in pages of 1 KiB. -/
theorem cut_vrc4 {r : Vrc4} (hc : c.Reachable d) (hboard : c.board = .vrc4 r) :
    c.banks.chr.IsCut d.patternSize 0 1024 8 := by
  have hfitted := hc.wellFormed.banks
  rw [hboard] at hfitted
  exact show c.banks.chr.IsCut d.patternSize 0 (8 * 1024 / 8) 8 from hfitted.chr

/-- The pages show what the registers ask for. -/
theorem select_vrc4 {r : Vrc4} (hc : c.Reachable d) (hboard : c.board = .vrc4 r) {page : Nat}
    (hpage : page < 8) : c.banks.chr.select page (r.chrBank page) = .ok c.banks.chr := by
  refine Banks.stands_chr_iff.mp (hc.stands _ ?_)
  rw [hboard]
  exact List.mem_append_left _ (List.mem_append_right _
    (List.mem_map_of_mem (List.mem_range.mpr hpage)))

theorem bank_vrc4 {r : Vrc4} (hc : c.Reachable d) (hboard : c.board = .vrc4 r) {page : Nat}
    (hpage : page < 8) :
    c.banks.chr.bank page = .ok (r.chrBank page % max (d.patternSize / 1024) 1) := by
  have hcut := hc.cut_vrc4 hboard
  rw [Window.bank_of_select (hc.select_vrc4 hboard hpage), hcut.and_bankMask, hcut.bankCount_eq]

/-- Without its lowest line a register of nine bits counts to 256 banks. -/
theorem pattern_lt_of_dropsLine (hc : c.Reachable d) (hdrops : c.board.DropsLine) {addr i : Nat}
    (haddr : addr < 0x2000) (hmap : c.banks.mapPpu addr = .ok (.pattern i)) : i < 0x40000 := by
  obtain ⟨r, hboard, hmapper⟩ := hdrops.exists_vrc4
  have hnarrow : r.Narrow := by
    have hnarrow := hc.narrow
    rw [hboard] at hnarrow
    exact hnarrow
  have hcut := hc.cut_vrc4 hboard
  have hbank := hc.bank_vrc4 hboard (show addr / 1024 < 8 by omega)
  have hfew : r.chrBank (addr / 1024) < 256 := by
    have hbits := hnarrow (addr / 1024)
    rw [Vrc4.chrBank, if_pos hmapper]
    omega
  have hle := Nat.mod_le (r.chrBank (addr / 1024)) (max (d.patternSize / 1024) 1)
  have hsize : 0 < d.patternSize := hc.wellFormed.valid.patternSize_pos
  have hresolve := hcut.resolve_eq hsize (Nat.zero_le addr) hbank
  have hrest := Nat.mod_lt addr (show 0 < min 1024 d.patternSize by omega)
  simp only [Banks.mapPpu, haddr, if_true, hresolve, bind, Except.bind] at hmap
  cases hmap
  omega

end Reachable

end Cartridge

/-- Every byte of pattern memory can be brought into sight by writes, from every reachable
cartridge, except with the wiring that leaves out a line: there the bytes from 256 KiB on are never
in sight, though the board takes twice as much. -/
theorem pattern_bytes_shown {c : Cartridge} (hc : c.Reachable d) {i : Nat}
    (hi : i < d.patternSize) :
    ((c.board.DropsLine → i < 0x40000) →
      ∃ writes c' addr, c.writeAll writes = .ok c' ∧ addr < 0x2000 ∧
        c'.banks.mapPpu addr = .ok (.pattern i)) ∧
    (c.board.DropsLine → 0x40000 ≤ i →
      ∀ c' : Cartridge, c'.Reachable d → ∀ addr < 0x2000,
        c'.banks.mapPpu addr ≠ .ok (.pattern i)) := by
  refine ⟨hc.exists_pattern hi, ?_⟩
  intro hdrops hhigh c' hc' addr haddr hmap
  have hlow := hc'.pattern_lt_of_dropsLine (hc.dropsLine hc' hdrops) haddr hmap
  omega

/-- As much pattern memory as the VRC4 takes. -/
def Descriptor.largeVrc4 : Descriptor := .named "KONAMI-VRC-4" 0x8000 0x80000

theorem Descriptor.largeVrc4_load :
    ∃ c notes, Cartridge.load .largeVrc4 (.zeroed 0x8000) (.zeroed 0x80000) =
        .ok { value := .ok c, notes } ∧
      c.board = .vrc4 {
        mapper := 23
        latch := some false
        timer := some { counter := .up8, ack := .registerWrite } } :=
  Cartridge.load_of_configure (by decide) Array.size_replicate Array.size_replicate (by decide)
    ⟨_, _, rfl⟩

/-- All nine bits count: a byte close to the end. -/
theorem pattern_bytes_shown_largeVrc4 :
    ∃ c notes, Cartridge.load .largeVrc4 (.zeroed 0x8000) (.zeroed 0x80000) =
        .ok { value := .ok c, notes } ∧
      ∃ writes c' addr, c.writeAll writes = .ok c' ∧ addr < 0x2000 ∧
        c'.banks.mapPpu addr = .ok (.pattern 0x7ABCD) := by
  obtain ⟨c, notes, hload, hboard⟩ := Descriptor.largeVrc4_load
  have hline : ¬ c.board.DropsLine := by
    rw [hboard]
    exact (by decide : ¬ (23 : UInt16) = 22)
  have hshown := pattern_bytes_shown (.load hload) (show 0x7ABCD < 0x80000 by decide)
  exact ⟨c, notes, hload, hshown.1 fun hdrops => absurd hdrops hline⟩

/-- As much again, with the wiring that leaves a line out. -/
def Descriptor.largeVrc2 : Descriptor := .named "MAPPER022" 0x8000 0x80000

theorem Descriptor.largeVrc2_load :
    ∃ c notes, Cartridge.load .largeVrc2 (.zeroed 0x8000) (.zeroed 0x80000) =
        .ok { value := .ok c, notes } ∧
      c.board = .vrc4 { mapper := 22, latch := some false, timer := none } :=
  Cartridge.load_of_configure (by decide) Array.size_replicate Array.size_replicate (by decide)
    ⟨_, _, rfl⟩

/-- The board takes pattern memory whose upper half no cartridge of the kind ever shows. -/
theorem upper_half_never_shown_largeVrc2 :
    (∃ c notes, Cartridge.load .largeVrc2 (.zeroed 0x8000) (.zeroed 0x80000) =
      .ok { value := .ok c, notes }) ∧
    Descriptor.largeVrc2.patternSize = 0x80000 ∧
    ∀ i, 0x40000 ≤ i → ∀ c : Cartridge, c.Reachable .largeVrc2 → ∀ addr < 0x2000,
      c.banks.mapPpu addr ≠ .ok (.pattern i) := by
  obtain ⟨c, notes, hload, hboard⟩ := Descriptor.largeVrc2_load
  refine ⟨⟨c, notes, hload⟩, rfl, ?_⟩
  intro i hi c' hc' addr haddr hmap
  have hc : c.Reachable .largeVrc2 := .load hload
  have hdrops : c.board.DropsLine := by
    rw [hboard]
    exact rfl
  have hlow := hc'.pattern_lt_of_dropsLine (hc.dropsLine hc' hdrops) haddr hmap
  omega

end GamePak
