import GamePak.Proofs.Histories
import GamePak.Proofs.PatternCoverage
import GamePak.Proofs.Vrc2
import GamePak.Proofs.WorkRam

/-!
The pattern registers of the VRC2 and VRC4. A page takes its bank number in two halves, each at an
address of its own, and the wiring says which addresses reach which half. Each half holds what was
last written to it, so that the order of writes to different halves does not matter, and the page
shows the bank that its two halves spell.
-/

namespace GamePak

open Command (lastWritten)

variable {d : Descriptor}

theorem RegisterFile.eq_of_read {α : Type} {file file' : RegisterFile α}
    (h : ∀ n < 8, file.read n = file'.read n) : file = file' := by
  apply Vector.ext
  intro n hn
  have hread := h n hn
  simp only [read, index, Fin.getElem_fin, Fin.val_ofNat, Nat.mod_eq_of_lt hn] at hread
  exact hread

namespace Vrc4

variable {r : Vrc4} {mapper : UInt16} {addr : UInt16} {page other : Nat} {high high' : Bool}
  {past : List Command} {command : Command}

/-! ## Addresses -/

/-- An address as the chip sees it: the block, and the register that the two lines choose in it. -/
def translated (mapper addr : UInt16) : Nat :=
  addr.toNat / 0x1000 * 0x1000 +
    ((lines mapper addr.toNat).1.toNat + 2 * (lines mapper addr.toNat).2.toNat)

/-- The addresses at which a page takes one half of its bank number. -/
def HalfAt (mapper : UInt16) (page : Nat) (high : Bool) (addr : UInt16) : Prop :=
  0x8000 ≤ addr.toNat ∧
    translated mapper addr = 0xB000 + 0x1000 * (page / 2) + 2 * (page % 2) + high.toNat

instance (mapper : UInt16) (page : Nat) (high : Bool) : DecidablePred (HalfAt mapper page high) :=
  fun _ => inferInstanceAs (Decidable (_ ∧ _))

theorem HalfAt.unique (h : HalfAt mapper page high addr) (h' : HalfAt mapper other high' addr) :
    page = other ∧ high = high' := by
  have hsame := h.2.symm.trans h'.2
  have hhigh := high.toNat_le
  have hhigh' := high'.toNat_le
  have hbit : high.toNat = high'.toNat := by omega
  refine ⟨by omega, ?_⟩
  cases high <;> cases high' <;> first | rfl | cases hbit

/-- The registers of four blocks, two for each page. -/
theorem halfAt_iff (hpage : page < 8) :
    HalfAt r.mapper page high addr ↔ 0xB000 ≤ addr.toNat ∧ addr.toNat < 0xF000 ∧
      page = 2 * (addr.toNat / 0x1000 - 0xB) + r.register addr.toNat / 2 ∧
      high = decide (r.register addr.toNat % 2 = 1) := by
  have hregister := r.register_lt addr.toNat
  have htranslated : translated r.mapper addr =
      addr.toNat / 0x1000 * 0x1000 + r.register addr.toNat := rfl
  rw [HalfAt, htranslated]
  cases high with
  | false =>
    simp only [Bool.toNat_false, Bool.false_eq, decide_eq_false_iff_not]
    omega
  | true =>
    simp only [Bool.toNat_true, Bool.true_eq, decide_eq_true_eq]
    omega

theorem write_of_halfAt (hpage : page < 8) (h : HalfAt r.mapper page high addr) (value : UInt8) :
    r.write addr.toNat value = r.writeChr page high value := by
  obtain ⟨hlow, hbelow, rfl, rfl⟩ := (halfAt_iff hpage).mp h
  unfold write
  simp only
  rw [if_neg (by omega), if_neg (by omega), if_neg (by omega), if_neg (by omega),
    if_neg (by omega), if_pos hbelow]

theorem exists_halfAt (r : Vrc4) (hlow : 0xB000 ≤ addr.toNat) (hhigh : addr.toNat < 0xF000) :
    ∃ page < 8, ∃ high, HalfAt r.mapper page high addr := by
  have hregister := r.register_lt addr.toNat
  have hpage : 2 * (addr.toNat / 0x1000 - 0xB) + r.register addr.toNat / 2 < 8 := by omega
  exact ⟨_, hpage, _, (halfAt_iff hpage).mpr ⟨hlow, hhigh, rfl, rfl⟩⟩

theorem write_chrSelects (r : Vrc4) (value : UInt8) {addr : Nat}
    (h : ¬ (0xB000 ≤ addr ∧ addr < 0xF000)) :
    (r.write addr value).registers.chrSelects = r.chrSelects := by
  unfold write
  simp only
  repeat' split
  all_goals first
    | rfl
    | omega

theorem mem_mappers_of_wiring (h : wiring? d = some mapper) : mapper ∈ mappers := by
  unfold wiring? at h
  split at h
  · cases h
    decide
  · exact List.contains_iff_mem.mp (Option.filter_eq_some_iff.mp h).2

/-! ## The two halves of a number -/

/-- A write to the half of a page changes this half of its number; no other write changes it. -/
theorem read_write_half (r : Vrc4) (hpage : page < 8) (addr : UInt16) (value : UInt8) :
    (r.write addr.toNat value).registers.chrSelects.read page =
      if HalfAt r.mapper page true addr then setBankHigh (r.chrSelects.read page) value
      else if HalfAt r.mapper page false addr then setBankLow (r.chrSelects.read page) value
      else r.chrSelects.read page := by
  by_cases hblock : 0xB000 ≤ addr.toNat ∧ addr.toNat < 0xF000
  · obtain ⟨own, hown, high, hat⟩ := r.exists_halfAt hblock.1 hblock.2
    rw [write_of_halfAt hown hat]
    by_cases heq : own = page
    · subst heq
      rw [read_writeChr]
      cases high with
      | false =>
        have hnot : ¬ HalfAt r.mapper own true addr := fun h => absurd (h.unique hat).2 (by decide)
        rw [if_neg (by decide), if_neg hnot, if_pos hat]
      | true => rw [if_pos rfl, if_pos hat]
    · have hnot : ∀ high, ¬ HalfAt r.mapper page high addr := fun _ h => heq (hat.unique h).1
      rw [if_neg (hnot true), if_neg (hnot false), read_writeChr_other hown hpage (Ne.symm heq)]
  · have hnot : ∀ high, ¬ HalfAt r.mapper page high addr := by
      intro high h
      obtain ⟨hlow, hhigh, _⟩ := (halfAt_iff hpage).mp h
      exact hblock ⟨hlow, hhigh⟩
    rw [if_neg (hnot true), if_neg (hnot false), r.write_chrSelects value hblock]

/-- The nine bits that commands leave in the register of a page. -/
def number (mapper : UInt16) (page : Nat) (past : List Command) : Nat :=
  16 * ((lastWritten (HalfAt mapper page true) past).toNat % 32) +
    (lastWritten (HalfAt mapper page false) past).toNat % 16

/-- The bank that commands ask for in a page. -/
def asked (mapper : UInt16) (page : Nat) (past : List Command) : Nat :=
  if mapper = 22 then number mapper page past / 2 else number mapper page past

theorem number_write {value : UInt8} : number mapper page (past ++ [.event (.write addr value)]) =
    16 * ((if HalfAt mapper page true addr then value
      else lastWritten (HalfAt mapper page true) past).toNat % 32) +
    (if HalfAt mapper page false addr then value
      else lastWritten (HalfAt mapper page false) past).toNat % 16 := by
  rw [number, Command.lastWritten_write, Command.lastWritten_write]

/-- Writes to different halves, of one page or of two, may come in either order. -/
theorem number_comm {addr' : UInt16} {value value' : UInt8} {page' : Nat}
    (h : HalfAt mapper page high addr) (h' : HalfAt mapper other high' addr')
    (hne : (page, high) ≠ (other, high')) :
    number mapper page' (past ++ [.event (.write addr value)] ++ [.event (.write addr' value')]) =
      number mapper page'
        (past ++ [.event (.write addr' value')] ++ [.event (.write addr value)]) := by
  have hlast : ∀ half, lastWritten (HalfAt mapper page' half)
      (past ++ [.event (.write addr value)] ++ [.event (.write addr' value')]) =
      lastWritten (HalfAt mapper page' half)
        (past ++ [.event (.write addr' value')] ++ [.event (.write addr value)]) := by
    intro half
    have hnot : ¬ (HalfAt mapper page' half addr ∧ HalfAt mapper page' half addr') := by
      rintro ⟨hat, hat'⟩
      obtain ⟨rfl, rfl⟩ := h.unique hat
      obtain ⟨rfl, rfl⟩ := h'.unique hat'
      exact hne rfl
    simp only [Command.lastWritten_write]
    split
    · rename_i hat'
      rw [if_neg fun hat => hnot ⟨hat, hat'⟩]
    · rfl
  rw [number, number, hlast, hlast]

/-! ## Histories -/

/-- The registers hold what was last written to each half of them. -/
def Follows (past : List Command) (r : Vrc4) : Prop :=
  ∀ page < 8, (r.chrSelects.read page).toNat = number r.mapper page past

theorem Follows.write (h : r.Follows past) (addr : UInt16) (value : UInt8) :
    (r.write addr.toNat value).registers.Follows (past ++ [.event (.write addr value)]) := by
  intro page hpage
  have hold := h page hpage
  have hnarrow : (r.chrSelects.read page).toNat < 512 := by
    rw [hold, number]
    omega
  rw [number] at hold
  rw [write_mapper, number_write, r.read_write_half hpage addr value]
  by_cases hhigh : HalfAt r.mapper page true addr
  · have hlow : ¬ HalfAt r.mapper page false addr := fun h => absurd (h.unique hhigh).2 (by decide)
    rw [if_pos hhigh, if_pos hhigh, if_neg hlow, toNat_setBankHigh _ hnarrow]
    omega
  · rw [if_neg hhigh, if_neg hhigh]
    by_cases hlow : HalfAt r.mapper page false addr
    · rw [if_pos hlow, if_pos hlow, toNat_setBankLow _ hnarrow]
      omega
    · rw [if_neg hlow, if_neg hlow]
      exact hold

/-- Only a write reaches the pattern registers; all else leaves at most another timer. -/
theorem Follows.moves {r' : Vrc4} (h : r.Follows past)
    (hmoves : command.Moves (.vrc4 r) (.vrc4 r')) : r'.Follows (past ++ [command]) := by
  cases hmoves.reacts with
  | @write addr value _ hreply heq =>
    cases hreply
    cases heq
    exact h.write addr value
  | clock _ _ _ heq =>
    cases heq
    intro page hpage
    rw [number, Command.lastWritten_concat, Command.lastWritten_concat]
    exact h page hpage
  | read hkind => cases hkind
  | scanline hkind => cases hkind
  | ignored hignored heq =>
    cases heq
    intro page hpage
    rw [number, Command.lastWritten_concat, Command.lastWritten_concat, hignored.written?,
      hignored.written?]
    exact h page hpage

end Vrc4

namespace Cartridge

variable {c : Cartridge} {past : List Command} {r : Vrc4}

theorem CameOf.follows (hc : c.CameOf d past) (hboard : c.board = .vrc4 r) : r.Follows past := by
  refine hc.keeps_chip (k := .vrc4) (P := Vrc4.Follows) ?_ Vrc4.Follows.moves hboard
  intro reply r hstart hr
  obtain ⟨own, hown, rfl⟩ := Option.map_eq_some_iff.mp hstart
  obtain ⟨_, mapper, _, start, rfl, rfl⟩ := Vrc4.start?_eq_some hown
  cases hr
  intro page _
  simp only [RegisterFile.read, Fin.getElem_fin, Vector.getElem_replicate]
  rfl

/-- What the pages show: the banks that commands ask for, as far as there are so many. -/
def ShowsAsked (c : Cartridge) (d : Descriptor) (mapper : UInt16) (past : List Command) : Prop :=
  ∀ page < 8, c.banks.chr.bank page =
    .ok (Vrc4.asked mapper page past % max (d.patternSize / 1024) 1)

theorem CameOf.showsAsked (hc : c.CameOf d past) (hboard : c.board = .vrc4 r) :
    c.ShowsAsked d r.mapper past := by
  intro page hpage
  rw [hc.reachable.bank_vrc4 hboard hpage, Vrc4.chrBank, hc.follows hboard page hpage]
  rfl

/-- A write to half of a bank number changes this number and the pages, and nothing else. -/
theorem CameOf.write_half (hc : c.CameOf d past) (hboard : c.board = .vrc4 r) {page : Nat}
    {high : Bool} {addr : UInt16} (hpage : page < 8) (hat : Vrc4.HalfAt r.mapper page high addr)
    (value : UInt8) :
    ∃ written chrSelects pages, c.write addr value = .ok written ∧
      written.value.CameOf d (past ++ [.event (.write addr value)]) ∧
      written.value = { c with
        board := .vrc4 { r with chrSelects }
        banks := { c.banks with chr := { c.banks.chr with pages } } } := by
  obtain ⟨written, hwritten, hcame⟩ := hc.exists_write addr value
  obtain ⟨reply, wram, banks, hreply, hbanks, heq⟩ := write_eq_ok hwritten
  have hown : c.board.write addr value = .ok ((r.writeChr page high value).map .vrc4) := by
    rw [hboard]
    exact congrArg (Except.ok ∘ Reply.map Board.vrc4) (Vrc4.write_of_halfAt hpage hat value)
  obtain rfl := Except.ok.inj (hown.symm.trans hreply)
  have hchr : ∀ s ∈ ((r.writeChr page high value).map Board.vrc4).selects,
      ∃ page bank, s = .chr page bank := fun s hs => ⟨page, _, List.mem_singleton.mp hs⟩
  obtain ⟨pages, rfl⟩ := Banks.applyAll_chr hchr hbanks
  have hwram : written.value.wram = c.wram := by
    refine hc.reachable.wellFormed.write_spares ?_ hwritten
    intro offset hmap
    have harea := Board.area_of_mapPrg_wram hmap
    have hblock := (Vrc4.halfAt_iff hpage).mp hat
    omega
  rw [heq] at hwram
  refine ⟨written, (r.writeChr page high value).registers.chrSelects, pages, hwritten, hcame, ?_⟩
  rw [heq, show wram = c.wram from hwram]
  rfl

theorem CameOf.write_halves (hc : c.CameOf d past) (hboard : c.board = .vrc4 r) {page other : Nat}
    {high high' : Bool} {addr addr' : UInt16} (hpage : page < 8) (hother : other < 8)
    (hat : Vrc4.HalfAt r.mapper page high addr) (hat' : Vrc4.HalfAt r.mapper other high' addr')
    (value value' : UInt8) :
    ∃ last chrSelects pages, c.writeAll [(addr, value), (addr', value')] = .ok last ∧
      last.CameOf d (past ++ [.event (.write addr value)] ++ [.event (.write addr' value')]) ∧
      last = { c with
        board := .vrc4 { r with chrSelects }
        banks := { c.banks with chr := { c.banks.chr with pages } } } := by
  obtain ⟨first, chrSelects, pages, hfirst, hcame, heq⟩ := hc.write_half hboard hpage hat value
  have hboard' : first.value.board = .vrc4 { r with chrSelects } := by
    rw [heq]
  obtain ⟨second, chrSelects', pages', hsecond, hcame', heq'⟩ :=
    hcame.write_half hboard' hother hat' value'
  refine ⟨second.value, chrSelects', pages', ?_, hcame', ?_⟩
  · have hrest : first.value.writeAll [(addr', value')] = .ok second.value := by
      simp only [writeAll, List.foldlM_cons, hsecond]
      rfl
    simp only [writeAll, List.foldlM_cons, hfirst]
    exact hrest
  · rw [heq', heq]

/-- The order in which different halves are written does not show. -/
theorem CameOf.write_halves_comm (hc : c.CameOf d past) (hboard : c.board = .vrc4 r)
    {page other : Nat} {high high' : Bool} {addr addr' : UInt16} (hpage : page < 8)
    (hother : other < 8) (hat : Vrc4.HalfAt r.mapper page high addr)
    (hat' : Vrc4.HalfAt r.mapper other high' addr') (hne : (page, high) ≠ (other, high'))
    (value value' : UInt8) :
    ∃ last, c.writeAll [(addr, value), (addr', value')] = .ok last ∧
      c.writeAll [(addr', value'), (addr, value)] = .ok last := by
  obtain ⟨last, chrSelects, pages, hlast, hcame, heq⟩ :=
    hc.write_halves hboard hpage hother hat hat' value value'
  obtain ⟨last', chrSelects', pages', hlast', hcame', heq'⟩ :=
    hc.write_halves hboard hother hpage hat' hat value' value
  have hboard₁ : last.board = .vrc4 { r with chrSelects } := by
    rw [heq]
  have hboard₂ : last'.board = .vrc4 { r with chrSelects := chrSelects' } := by
    rw [heq']
  have hnumbers : chrSelects = chrSelects' := by
    apply RegisterFile.eq_of_read
    intro n hn
    apply UInt16.toNat_inj.mp
    have hfollows := hcame.follows hboard₁ n hn
    have hfollows' := hcame'.follows hboard₂ n hn
    rw [Vrc4.number_comm hat hat' hne] at hfollows
    exact hfollows.trans hfollows'.symm
  subst hnumbers
  have hpages : last.banks.chr = last'.banks.chr := by
    apply (hcame.reachable.cut_vrc4 hboard₁).eq_of_select (hcame'.reachable.cut_vrc4 hboard₂)
    intro n hn
    exact ⟨_, hcame.reachable.select_vrc4 hboard₁ hn, hcame'.reachable.select_vrc4 hboard₂ hn⟩
  refine ⟨last, hlast, ?_⟩
  rw [hlast', heq, heq']
  rw [heq, heq'] at hpages
  exact congrArg (fun chr => Except.ok { c with
    board := .vrc4 { r with chrSelects }
    banks := { c.banks with chr } }) hpages.symm

/-- A write elsewhere leaves the page as it was. -/
theorem Reachable.write_elsewhere (hc : c.Reachable d) (hboard : c.board = .vrc4 r)
    (addr : UInt16) (value : UInt8) :
    ∃ written, c.write addr value = .ok written ∧ ∀ page < 8,
      (∀ high, ¬ Vrc4.HalfAt r.mapper page high addr) →
        written.value.banks.chr.bank page = c.banks.chr.bank page := by
  obtain ⟨written, reply, hwritten, hreachable, hreply, _, hafter, _⟩ := hc.exists_write addr value
  rw [hboard] at hreply
  cases hreply
  refine ⟨written, hwritten, ?_⟩
  intro page hpage hnot
  rw [hreachable.bank_vrc4 hafter hpage, hc.bank_vrc4 hboard hpage, Vrc4.chrBank, Vrc4.chrBank,
    Vrc4.write_mapper, r.read_write_half hpage addr value, if_neg (hnot true), if_neg (hnot false)]

end Cartridge

/-- On a fresh cartridge of either chip each pattern page shows, after any run, the bank that the
last writes to its two halves spell, and so it does on every cartridge that has come about, by
snapshots too. Writes to different halves may come in either order, and a write to neither half of
a page leaves the page. -/
theorem pattern_halves_last_write_wins {prg chr : Memory} {c : Cartridge} {notes : List Note}
    (hload : Cartridge.load d prg chr = .ok { value := .ok c, notes }) {start : Vrc4}
    (hboard : c.board = .vrc4 start) :
    start.mapper ∈ Vrc4.mappers ∧ Vrc4.wiring? d = some start.mapper ∧
    (∀ video : VideoMemory, video.Fits d → ∀ commands, c.TakesNone commands →
      ∃ last seen, Machine.run { cartridge := c, video } commands = .ok (last, seen) ∧
        last.cartridge.ShowsAsked d start.mapper commands) ∧
    ∀ c' : Cartridge, c'.Reachable d →
      (∃ past, c'.CameOf d past) ∧
      (∀ past, c'.CameOf d past → c'.ShowsAsked d start.mapper past) ∧
      (∀ page < 8, ∀ other < 8, ∀ high high' addr addr',
        Vrc4.HalfAt start.mapper page high addr → Vrc4.HalfAt start.mapper other high' addr' →
        (page, high) ≠ (other, high') → ∀ value value',
          ∃ last, c'.writeAll [(addr, value), (addr', value')] = .ok last ∧
            c'.writeAll [(addr', value'), (addr, value)] = .ok last) ∧
      ∀ addr value, ∃ written, c'.write addr value = .ok written ∧ ∀ page < 8,
        (∀ high, ¬ Vrc4.HalfAt start.mapper page high addr) →
          written.value.banks.chr.bank page = c'.banks.chr.bank page := by
  have hc : c.CameOf d [] := .load hload
  have hwiring : Vrc4.wiring? d = some start.mapper := by
    have hwired := hc.reachable.wired
    rw [hboard] at hwired
    exact hwired.vrc4.1
  -- The descriptor says which chip it is and how it is wired, so all cartridges of it agree.
  have hchip : ∀ {c' : Cartridge}, c'.Reachable d →
      ∃ r, c'.board = .vrc4 r ∧ r.mapper = start.mapper := by
    intro c' hc'
    obtain ⟨r, hr, hmapper, _⟩ := hc'.exists_vrc4 hwiring
    exact ⟨r, hr, hmapper⟩
  have hshows : ∀ {c' : Cartridge} {past : List Command}, c'.CameOf d past →
      c'.ShowsAsked d start.mapper past := by
    intro c' past hc'
    obtain ⟨r, hr, hmapper⟩ := hchip hc'.reachable
    rw [← hmapper]
    exact hc'.showsAsked hr
  refine ⟨Vrc4.mem_mappers_of_wiring hwiring, hwiring, ?_, ?_⟩
  · intro video hvideo commands hcommands
    obtain ⟨last, seen, hrun, hcame, _⟩ :=
      Machine.exists_run_cameOf (m := { cartridge := c, video }) hc hvideo hcommands
    exact ⟨last, seen, hrun, hshows hcame⟩
  · intro c' hc'
    obtain ⟨past, hpast⟩ := hc'.exists_cameOf
    obtain ⟨r, hr, hmapper⟩ := hchip hc'
    rw [← hmapper]
    refine ⟨⟨past, hpast⟩, fun past hpast => hpast.showsAsked hr, ?_, hc'.write_elsewhere hr⟩
    intro page hpage other hother high high' addr addr' hat hat' hne value value'
    exact hpast.write_halves_comm hr hpage hother hat hat' hne value value'

/-- The wiring that halves numbers: the high half of the first page, a cycle and a tile read, its
low half, and the low half of the second page. -/
theorem pattern_halves_last_write_wins_largeVrc2 :
    ∃ c notes, Cartridge.load .largeVrc2 (.zeroed 0x8000) (.zeroed 0x80000) =
        .ok { value := .ok c, notes } ∧
      ∃ last seen, Machine.run { cartridge := c, video := .cleared .largeVrc2 }
          [.event (.write 0xB002 0x3F), .event .clock, .event (.readVideo 0),
            .event (.write 0xB000 5), .event (.write 0xB001 7)] = .ok (last, seen) ∧
        last.cartridge.banks.chr.bank 0 = .ok 250 ∧ last.cartridge.banks.chr.bank 1 = .ok 3 := by
  obtain ⟨c, notes, hload, hboard⟩ := Descriptor.largeVrc2_load
  obtain ⟨_, _, hruns, _⟩ := pattern_halves_last_write_wins hload hboard
  obtain ⟨last, seen, hrun, hshows⟩ := hruns (.cleared .largeVrc2) ⟨rfl, rfl⟩
    [.event (.write 0xB002 0x3F), .event .clock, .event (.readVideo 0),
      .event (.write 0xB000 5), .event (.write 0xB001 7)] (by intro s hs; simp at hs)
  refine ⟨c, notes, hload, last, seen, hrun, ?_, ?_⟩
  · rw [hshows 0 (by decide)]
    exact congrArg Except.ok (by decide)
  · rw [hshows 1 (by decide)]
    exact congrArg Except.ok (by decide)

end GamePak
