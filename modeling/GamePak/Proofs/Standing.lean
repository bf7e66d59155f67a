import GamePak.Proofs.Selections
import GamePak.Proofs.Wiring

/-!
Registers and banks agree. Four chips keep the numbers of their banks in registers as well as in the
windows; a write to such a register makes the selections that the registers then ask for, and a
write to any other leaves them. Other selections are made at power-on once and for all. Together
they stand in every reachable cartridge, so that to make all of them again would change nothing.
-/

namespace GamePak

open Select (Renews)

/-- The selections that the registers ask for, on boards that have registers for them. -/
def Board.selects : Board → List Select
  | mmc1 r => r.selects
  | mmc2 r => r.selects
  | mmc3 r => r.selects
  | vrc4 r => r.selects
  | _ => []

/-- The selections that are made at power-on and stay. -/
def BoardKind.wired : BoardKind → List Select
  | discrete .nrom => [.prg 0 0]
  | discrete .cnrom => [.prg 0 0]
  | discrete .uxrom => [.prgFromEnd 1 0]
  | mmc2 => [.prgBefore 1 2, .prgBefore 2 1, .prgBefore 3 0]
  | mmc3 => [.prgFromEnd 3 0]
  | fcg => [.prgFromEnd 1 0]
  | vrc4 => [.prgFromEnd 3 0]
  | fme7 => [.prgFromEnd 4 0]
  | codemasters => [.prgFromEnd 1 0]
  | vrc3 => [.prgFromEnd 1 0]
  | _ => []

/-- All selections that stand, whatever has been written to the board. -/
def Board.standing (b : Board) : List Select := b.selects ++ b.kind.wired

/-! ## What a write renews, by chip -/

namespace Discrete

theorem write_wired (b : Discrete) (addr : Nat) (value : UInt8) :
    Renews (b.write addr value).selects (BoardKind.discrete b).wired
      (BoardKind.discrete b).wired := by
  apply Renews.spared
  unfold write
  simp only
  split
  · simp
  · cases b <;> simp [BoardKind.wired, latch, Select.slot]

end Discrete

namespace Codemasters

theorem write_wired (r : Codemasters) (addr : Nat) (value : UInt8) :
    Renews (r.write addr value).selects BoardKind.codemasters.wired
      BoardKind.codemasters.wired := by
  apply Renews.spared
  unfold write
  simp only
  repeat' split
  all_goals simp [BoardKind.wired, Select.slot]

end Codemasters

namespace Mmc1

theorem selects_nodup (r : Mmc1) : (r.selects.map Select.slot).Nodup := by
  have hslots : r.selects.map Select.slot = [.chr 0, .chr 1, .wram, .prg 0, .prg 1] := by
    unfold selects chrSelects prgSelects
    cases r.chrMode <;> cases r.prgMode <;> rfl
  rw [hslots]
  decide

theorem commit_renews (r : Mmc1) (addr : Nat) (value : UInt8) (old : List Select) :
    Renews (r.commit addr value).selects old (r.commit addr value).registers.selects := by
  unfold commit
  simp only
  split
  · exact Renews.all (selects_nodup _) [_]
  · split
    · exact Renews.all (selects_nodup _) []
    · split
      · exact Renews.all (selects_nodup _) []
      · exact Renews.all (selects_nodup _) []

/-- Four writes of five change the serial input only, which no selection depends on. -/
theorem write_renews {r : Mmc1} {addr : Nat} {value : UInt8} {reply : Reply Mmc1}
    (h : r.write addr value = .ok reply) :
    Renews reply.selects r.selects reply.registers.selects := by
  unfold write at h
  split at h
  · cases h
    exact Renews.none
  · split at h
    · cases h
      exact Renews.all (selects_nodup _) []
    · obtain ⟨count, _, h⟩ := Fault.bind_eq_ok_iff.mp h
      split at h
      · cases h
        exact Renews.none
      · cases h
        exact r.commit_renews addr _ _

end Mmc1

namespace Mmc2

theorem selects_nodup (r : Mmc2) : (r.selects.map Select.slot).Nodup := by
  simp [selects, Select.slot]

theorem write_renews (r : Mmc2) (addr : Nat) (value : UInt8) :
    Renews (r.write addr value).selects r.selects (r.write addr value).registers.selects := by
  unfold write
  split
  · exact Renews.none
  · split
    · exact Renews.all r.selects_nodup [_]
    · split
      · exact Renews.all (selects_nodup _) []
      · split
        · exact Renews.all (selects_nodup _) []
        · split
          · exact Renews.all (selects_nodup _) []
          · split
            · exact Renews.all (selects_nodup _) []
            · exact Renews.all r.selects_nodup [_]

theorem afterRead_renews (r : Mmc2) (addr : Nat) :
    Renews (r.afterRead addr).selects r.selects (r.afterRead addr).registers.selects := by
  unfold afterRead
  simp only
  split
  · exact Renews.all (selects_nodup _) []
  · exact Renews.none

theorem write_wired (r : Mmc2) (addr : Nat) (value : UInt8) :
    Renews (r.write addr value).selects BoardKind.mmc2.wired BoardKind.mmc2.wired := by
  apply Renews.spared
  unfold write
  repeat' split
  all_goals simp [BoardKind.wired, selects, Select.slot]

theorem afterRead_wired (r : Mmc2) (addr : Nat) :
    Renews (r.afterRead addr).selects BoardKind.mmc2.wired BoardKind.mmc2.wired := by
  apply Renews.spared
  unfold afterRead
  simp only
  split
  · simp [BoardKind.wired, selects, Select.slot]
  · simp

end Mmc2

namespace Mmc3

theorem selects_nodup (r : Mmc3) : (r.selects.map Select.slot).Nodup := by
  unfold selects prgSelects chrSelects
  cases r.prgSwapped <;> cases r.chrSwapped <;> simp [Select.slot]

theorem wired_mem (r : Mmc3) : ∀ s ∈ BoardKind.mmc3.wired, s ∈ r.selects := by
  unfold selects prgSelects
  cases r.prgSwapped <;> simp [BoardKind.wired]

theorem selects_renews (r : Mmc3) (old : List Select) :
    Renews r.selects old (r.selects ++ BoardKind.mmc3.wired) := by
  intro s hs
  left
  apply Select.last?_of_nodup r.selects_nodup
  rcases List.mem_append.mp hs with hs | hs
  · exact hs
  · exact r.wired_mem s hs

theorem mirroring_spares (r : Mmc3) (m : Mirroring) :
    ∀ s ∈ r.selects ++ BoardKind.mmc3.wired, ∀ t ∈ [Select.mirroring m], t.slot ≠ s.slot := by
  unfold selects prgSelects chrSelects
  cases r.prgSwapped <;> cases r.chrSwapped <;> simp [BoardKind.wired, Select.slot]

theorem write_renews (r : Mmc3) (addr : Nat) (value : UInt8) :
    Renews (r.write addr value).selects (r.selects ++ BoardKind.mmc3.wired)
      ((r.write addr value).registers.selects ++ BoardKind.mmc3.wired) := by
  unfold write
  split
  · exact Renews.none
  · split
    · unfold writeEven
      split
      · exact selects_renews _ _
      · split
        · split
          · exact Renews.none
          · exact Renews.spared (r.mirroring_spares _)
        · split
          · exact Renews.none
          · exact Renews.none
    · unfold writeOdd
      split
      · exact selects_renews _ _
      · split
        · exact Renews.none
        · split
          · exact Renews.none
          · exact Renews.none

theorem scanline_selects {r r' : Mmc3} (h : r.scanline = .ok r') : r'.selects = r.selects := by
  rw [scanline_eq] at h
  cases h
  unfold counted
  repeat' split
  all_goals rfl

end Mmc3

namespace Fcg

theorem write_wired (r : Fcg) (addr : Nat) (value : UInt8) :
    Renews (r.write addr value).selects BoardKind.fcg.wired BoardKind.fcg.wired := by
  apply Renews.spared
  unfold write
  repeat' split
  all_goals simp [BoardKind.wired, Select.slot]

end Fcg

namespace Vrc4

/-- The selections of the pattern pages. -/
def pages (r : Vrc4) : List Select := (List.range 8).map r.chrSelect

theorem prgSelects_nodup (r : Vrc4) : (r.prgSelects.map Select.slot).Nodup := by
  unfold prgSelects
  split <;> simp [Select.slot]

/-- The two program pages that are always selected together. -/
theorem prgSelects_slot {r : Vrc4} {s : Select} (h : s ∈ r.prgSelects) :
    s.slot = .prg 0 ∨ s.slot = .prg 2 := by
  unfold prgSelects at h
  split at h <;> simp only [List.mem_cons, List.not_mem_nil, or_false] at h <;>
    rcases h with rfl | rfl <;> simp [Select.slot]

theorem pages_slot {r : Vrc4} {s : Select} (h : s ∈ r.pages) : ∃ page, s.slot = .chr page := by
  obtain ⟨page, _, rfl⟩ := List.mem_map.mp h
  exact ⟨page, rfl⟩

/-- Selections outside the pages of the registers leave what the registers asked for. -/
theorem selects_spared (r : Vrc4) {t : Select} (hprg : ∀ page, t.slot = .prg page → page = 1)
    (hchr : ∀ page, t.slot ≠ .chr page) : Renews [t] r.selects r.selects := by
  apply Renews.spared
  intro s hs u hu heq
  rw [List.mem_singleton.mp hu] at heq
  rcases List.mem_append.mp hs with hs | hs
  · rcases prgSelects_slot hs with hslot | hslot
    · have hpage := hprg 0 (heq.trans hslot)
      omega
    · have hpage := hprg 2 (heq.trans hslot)
      omega
  · obtain ⟨page, hslot⟩ := pages_slot hs
    exact hchr page (heq.trans hslot)

/-- A write to a program register selects both of its pages anew and no other. -/
theorem prgSelects_renews (r r' : Vrc4) (hpages : r'.pages = r.pages) :
    Renews r'.prgSelects r.selects r'.selects := by
  have hprg : Renews r'.prgSelects r.prgSelects r'.prgSelects :=
    Renews.all r'.prgSelects_nodup []
  have hchr : Renews r'.prgSelects r.pages r'.pages := by
    rw [hpages]
    apply Renews.spared
    intro s hs t ht heq
    obtain ⟨page, hslot⟩ := pages_slot hs
    rcases prgSelects_slot ht with hprg | hprg
    · cases hprg.symm.trans (heq.trans hslot)
    · cases hprg.symm.trans (heq.trans hslot)
  exact hprg.append hchr

theorem read_writeChr_other {r : Vrc4} {page other : Nat} (hpage : page < 8) (hother : other < 8)
    (hne : other ≠ page) (high : Bool) (value : UInt8) :
    (r.writeChr page high value).registers.chrSelects.read other = r.chrSelects.read other := by
  have hindex : RegisterFile.index page ≠ RegisterFile.index other := by
    intro heq
    have hval := congrArg Fin.val heq
    simp only [RegisterFile.index, Fin.val_ofNat, Nat.mod_eq_of_lt hpage,
      Nat.mod_eq_of_lt hother] at hval
    omega
  simp only [writeChr, RegisterFile.read_write, if_neg hindex]

theorem writeChr_chrSelect {r : Vrc4} {page other : Nat} (hpage : page < 8) (hother : other < 8)
    (hne : other ≠ page) (high : Bool) (value : UInt8) :
    (r.writeChr page high value).registers.chrSelect other = r.chrSelect other := by
  simp only [chrSelect, chrBank, read_writeChr_other hpage hother hne]
  rfl

theorem writeChr_renews (r : Vrc4) {page : Nat} (hpage : page < 8) (high : Bool) (value : UInt8) :
    Renews (r.writeChr page high value).selects r.selects
      (r.writeChr page high value).registers.selects := by
  have hmade : (r.writeChr page high value).selects =
      [(r.writeChr page high value).registers.chrSelect page] := rfl
  have hprg : Renews (r.writeChr page high value).selects r.prgSelects
      (r.writeChr page high value).registers.prgSelects := by
    apply Renews.spared
    intro s hs t ht heq
    rw [List.mem_singleton.mp ht] at heq
    rcases prgSelects_slot hs with hslot | hslot
    · cases heq.trans hslot
    · cases heq.trans hslot
  have hchr : Renews (r.writeChr page high value).selects r.pages
      (r.writeChr page high value).registers.pages := by
    intro s hs
    obtain ⟨other, hmem, rfl⟩ := List.mem_map.mp hs
    have hother : other < 8 := List.mem_range.mp hmem
    by_cases heq : other = page
    · left
      rw [heq, hmade]
      exact Select.last?_of_nodup (List.pairwise_singleton _ _) (List.mem_singleton_self _)
    · right
      refine ⟨?_, ?_⟩
      · rw [writeChr_chrSelect hpage hother heq]
        exact List.mem_map_of_mem hmem
      · refine Select.last?_eq_none_iff.mpr ?_
        intro t ht hslot
        rw [hmade, List.mem_singleton] at ht
        rw [ht] at hslot
        cases hslot
        exact heq rfl
  exact hprg.append hchr

theorem write_renews (r : Vrc4) (addr : Nat) (value : UInt8) :
    Renews (r.write addr value).selects r.selects (r.write addr value).registers.selects := by
  have hregister := r.register_lt addr
  unfold write
  simp only
  split
  · exact Renews.none
  · split
    · exact Renews.none
    · split
      · exact prgSelects_renews r _ rfl
      · split
        · split
          · exact prgSelects_renews r _ rfl
          · exact r.selects_spared (by simp [Select.slot]) (by simp [Select.slot])
        · split
          · exact r.selects_spared (by simp [Select.slot]) (by simp [Select.slot])
          · split
            · exact r.writeChr_renews (by omega) _ value
            · exact Renews.none

theorem write_wired (r : Vrc4) (addr : Nat) (value : UInt8) :
    Renews (r.write addr value).selects BoardKind.vrc4.wired BoardKind.vrc4.wired := by
  apply Renews.spared
  unfold write writeChr prgSelects chrSelect
  simp only
  repeat' split
  all_goals simp [BoardKind.wired, Select.slot]

end Vrc4

namespace Fme7

theorem write_wired (r : Fme7) (addr : Nat) (value : UInt8) :
    Renews (r.write addr value).selects BoardKind.fme7.wired BoardKind.fme7.wired := by
  apply Renews.spared
  unfold write parameter writeWorkArea
  simp only
  repeat' split
  all_goals simp [BoardKind.wired, Select.slot]

end Fme7

namespace Vrc3

theorem write_wired (r : Vrc3) (addr : Nat) (value : UInt8) :
    Renews (r.write addr value).selects BoardKind.vrc3.wired BoardKind.vrc3.wired := by
  apply Renews.spared
  unfold write
  repeat' split
  all_goals simp [BoardKind.wired, Select.slot]

end Vrc3

/-! ## Power-on -/

/-- What the windows show before anything has been selected in them. -/
def Layout.fresh (l : Layout) : List Select :=
  (List.range l.prgPages).map (.prg · 0) ++ (List.range l.chrPages).map (.chr · 0)

/-- The pattern registers start at zero, as the pages do. -/
theorem Vrc4.start_renews (r : Vrc4) (hzero : r.chrSelects = Vector.replicate 8 0) :
    Renews (.prgFromEnd 3 0 :: r.prgSelects) layout.fresh
      (r.selects ++ BoardKind.vrc4.wired) := by
  have hnodup : ((.prgFromEnd 3 0 :: r.prgSelects).map Select.slot).Nodup := by
    unfold prgSelects
    split <;> simp [Select.slot]
  have hprg : Renews (.prgFromEnd 3 0 :: r.prgSelects) layout.fresh r.prgSelects :=
    fun s hs => .inl (Select.last?_of_nodup hnodup (List.mem_cons_of_mem _ hs))
  have hwired : Renews (.prgFromEnd 3 0 :: r.prgSelects) layout.fresh BoardKind.vrc4.wired := by
    intro s hs
    rw [List.mem_singleton.mp hs]
    exact .inl (Select.last?_of_nodup hnodup (List.mem_cons_self ..))
  have hpages : Renews (.prgFromEnd 3 0 :: r.prgSelects) layout.fresh r.pages := by
    intro s hs
    obtain ⟨page, hmem, rfl⟩ := List.mem_map.mp hs
    have hbank : r.chrBank page = 0 := by
      unfold chrBank RegisterFile.read
      simp [hzero]
    right
    refine ⟨?_, ?_⟩
    · rw [chrSelect, hbank]
      exact List.mem_append_right _ (List.mem_map_of_mem hmem)
    · unfold prgSelects
      split <;> simp [Select.last?, Select.slot, chrSelect]
  exact (hprg.both hpages).both hwired

theorem Window.create_select {w : Window} {size start pageSize pages page : Nat}
    (h : create size start pageSize pages = .ok w) (hpage : page < pages) :
    w.select page 0 = .ok w := by
  obtain ⟨_, _, _, rfl⟩ := create_eq_ok_iff.mp h
  refine select_eq_ok_iff.mpr ⟨?_, ?_⟩
  · simpa [pageCount] using hpage
  · simp only [Nat.zero_and, List.set_replicate_self]

theorem Banks.powerOn_stands {d : Descriptor} {l : Layout} {b : Banks}
    (h : powerOn d l = .ok b) : ∀ s ∈ l.fresh, b.Stands s := by
  simp only [powerOn, Fault.bind_eq_ok_iff] at h
  obtain ⟨prg, hprg, chr, hchr, wram, _, tables, _, heq⟩ := h
  cases heq
  intro s hs
  rcases List.mem_append.mp hs with hs | hs
  · obtain ⟨page, hpage, rfl⟩ := List.mem_map.mp hs
    exact stands_prg_iff.mpr (Window.create_select hprg (List.mem_range.mp hpage))
  · obtain ⟨page, hpage, rfl⟩ := List.mem_map.mp hs
    unfold Window.forChr at hchr
    split at hchr
    · cases hchr
    · exact stands_chr_iff.mpr (Window.create_select hchr (List.mem_range.mp hpage))

namespace Board

variable {d : Descriptor} {b b' : Board}

theorem start_renews {k : BoardKind} {reply : Reply Board} (h : k.start? d = some reply) :
    Renews reply.selects k.layout.fresh reply.registers.standing := by
  cases k with
  | discrete b =>
    obtain ⟨own, hown, rfl⟩ := Option.map_eq_some_iff.mp h
    obtain ⟨_, rfl⟩ := Discrete.start?_eq_some hown
    cases b <;> decide
  | mmc1 =>
    obtain ⟨own, hown, rfl⟩ := Option.map_eq_some_iff.mp h
    obtain ⟨_, r, _, rfl⟩ := Mmc1.start?_eq_some hown
    exact (Renews.all r.selects_nodup []).both nofun
  | mmc2 =>
    obtain ⟨own, hown, rfl⟩ := Option.map_eq_some_iff.mp h
    obtain ⟨_, rfl⟩ := Mmc2.start?_eq_some hown
    decide
  | mmc3 =>
    obtain ⟨own, hown, rfl⟩ := Option.map_eq_some_iff.mp h
    obtain ⟨_, r, _, rfl⟩ := Mmc3.start?_eq_some hown
    exact r.selects_renews _
  | fcg =>
    obtain ⟨own, hown, rfl⟩ := Option.map_eq_some_iff.mp h
    obtain ⟨_, rfl⟩ := Fcg.start?_eq_some hown
    exact Renews.once _
  | vrc4 =>
    obtain ⟨own, hown, rfl⟩ := Option.map_eq_some_iff.mp h
    obtain ⟨_, mapper, _, r, rfl, rfl⟩ := Vrc4.start?_eq_some hown
    exact Vrc4.start_renews _ rfl
  | fme7 =>
    obtain ⟨own, hown, rfl⟩ := Option.map_eq_some_iff.mp h
    obtain ⟨_, rfl⟩ := Fme7.start?_eq_some hown
    exact Renews.once _
  | codemasters =>
    obtain ⟨own, hown, rfl⟩ := Option.map_eq_some_iff.mp h
    obtain ⟨_, rfl⟩ := Codemasters.start?_eq_some hown
    exact Renews.once _
  | vrc3 =>
    obtain ⟨own, hown, rfl⟩ := Option.map_eq_some_iff.mp h
    obtain ⟨_, rfl⟩ := Vrc3.start?_eq_some hown
    exact Renews.once _

/-! ## Every operation -/

theorem write_renews {addr : UInt16} {value : UInt8} {reply : Reply Board}
    (h : b.write addr value = .ok reply) :
    Renews reply.selects b.standing reply.registers.standing := by
  cases b with
  | discrete b =>
    cases h
    exact b.write_wired addr.toNat value
  | mmc1 r =>
    obtain ⟨own, hown, heq⟩ := Fault.bind_eq_ok_iff.mp h
    cases heq
    exact (Mmc1.write_renews hown).append nofun
  | mmc2 r =>
    cases h
    exact (r.write_renews addr.toNat value).append (r.write_wired addr.toNat value)
  | mmc3 r =>
    cases h
    exact r.write_renews addr.toNat value
  | fcg r =>
    cases h
    exact r.write_wired addr.toNat value
  | vrc4 r =>
    cases h
    exact (r.write_renews addr.toNat value).append (r.write_wired addr.toNat value)
  | fme7 r =>
    cases h
    exact r.write_wired addr.toNat value
  | codemasters r =>
    cases h
    exact r.write_wired addr.toNat value
  | vrc3 r =>
    cases h
    exact r.write_wired addr.toNat value

theorem afterRead_renews (b : Board) (addr : Nat) :
    Renews (b.afterRead addr).selects b.standing (b.afterRead addr).registers.standing := by
  cases b with
  | mmc2 r => exact (r.afterRead_renews addr).append (r.afterRead_wired addr)
  | _ => exact Renews.none

theorem mapTimer_standing (b : Board) (f : Timer → Timer) :
    (b.mapTimer f).standing = b.standing := by
  cases b <;> rfl

theorem clock_standing (h : b.clock = .ok b') : b'.standing = b.standing := by
  rcases clock_cases h with ⟨rfl, _⟩ | ⟨_, _, _, _, _, _, rfl⟩
  · rfl
  · exact b.mapTimer_standing _

theorem scanline_standing (h : b.scanline = .ok b') : b'.standing = b.standing := by
  cases b with
  | mmc3 r =>
    obtain ⟨own, hown, heq⟩ := Fault.bind_eq_ok_iff.mp h
    cases heq
    exact congrArg (· ++ BoardKind.mmc3.wired) (Mmc3.scanline_selects hown)
  | _ =>
    cases h
    rfl

theorem standing_persists : Persists d fun b banks => ∀ s ∈ b.standing, banks.Stands s where
  start := fun hstart hplain hbanks =>
    (start_renews hstart).stands hbanks (Banks.powerOn_stands hplain)
  write := fun h hwrite hbanks => (write_renews hwrite).stands hbanks h
  afterRead := fun h hbanks => (afterRead_renews _ _).stands hbanks h
  clock := by
    intro b b' banks h hclock
    rw [clock_standing hclock]
    exact h
  scanline := by
    intro b b' banks h hscanline
    rw [scanline_standing hscanline]
    exact h
  acknowledge := by
    intro b banks h
    rw [acknowledge, mapTimer_standing]
    exact h

end Board

theorem Cartridge.Reachable.stands {d : Descriptor} {c : Cartridge} (hc : c.Reachable d) :
    ∀ s ∈ c.board.standing, c.banks.Stands s :=
  Board.standing_persists.reachable hc

/-- In every reachable cartridge the banks are those that the registers ask for: on the four chips
that keep both, to select all pages anew from the registers changes nothing. -/
theorem banks_never_stale {d : Descriptor} {c : Cartridge} (hc : c.Reachable d) :
    (∀ r, c.board = .mmc1 r → c.banks.applyAll r.selects = .ok c.banks) ∧
    (∀ r, c.board = .mmc2 r → c.banks.applyAll r.selects = .ok c.banks) ∧
    (∀ r, c.board = .mmc3 r → c.banks.applyAll r.selects = .ok c.banks) ∧
    (∀ r, c.board = .vrc4 r → c.banks.applyAll r.selects = .ok c.banks) := by
  have hselects : ∀ s ∈ c.board.selects, c.banks.Stands s :=
    fun s hs => hc.stands s (List.mem_append_left _ hs)
  have hagain := Banks.applyAll_eq_self hselects
  refine ⟨?_, ?_, ?_, ?_⟩
  all_goals
    intro r hr
    rw [hr] at hagain
    exact hagain

/-- The second last program bank has been moved to the front and a bank put where it was. -/
theorem banks_never_stale_tlrom :
    ∃ c notes, Cartridge.load .tlrom (.zeroed 0x8000) #[] = .ok { value := .ok c, notes } ∧
      ∃ c' r, c.writeAll [(0x8000, 0x46), (0x8001, 3)] = .ok c' ∧ c'.board = .mmc3 r ∧
        r.prgSwapped = true ∧ c'.banks.applyAll r.selects = .ok c'.banks := by
  obtain ⟨c, notes, hload, hboard⟩ := Descriptor.tlrom_load
  obtain ⟨c', hwritten, hreachable, hafter, _⟩ := Cartridge.Reachable.exists_writeAll (.load hload)
    [(0x8000, 0x46), (0x8001, 3)]
  rw [hboard] at hafter
  have hr := (Except.ok.inj hafter).symm
  exact ⟨c, notes, hload, c', _, hwritten, hr, rfl, (banks_never_stale hreachable).2.2.1 _ hr⟩

end GamePak
