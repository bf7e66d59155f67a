import Mathlib.Algebra.Group.Nat.Defs
import GamePak.Proofs.Coverage
import GamePak.Proofs.Independence
import GamePak.Proofs.Nametables

/-!
The serial port of the MMC1. Seen from its registers the chip is a simple one: it keeps a list of
bits, and the fifth bit hands the number that they spell to the register that its address names.
The shift register and its counter hold the list, and the windows show what the registers ask for,
so that a cartridge and the simple chip stay in step through any writes whatever.
-/

namespace GamePak

variable {d : Descriptor}

/-! ## Banks that are all selected -/

/-- The selections leave nothing open: they name every page of the layout and an arrangement. -/
structure Layout.Covered (l : Layout) (selects : List Select) : Prop where
  prg : ∀ page < l.prgPages, ∃ bank, .prg page bank ∈ selects
  chr : ∀ page < l.chrPages, ∃ bank, .chr page bank ∈ selects
  wram : ∃ bank, .wram bank ∈ selects
  mirroring : ∃ m, .mirroring m ∈ selects

/-- Selections that leave nothing open stand in one set of banks only. -/
theorem Banks.Fitted.eq_of_stands {l : Layout} {b b' : Banks} (hb : b.Fitted d l)
    (hb' : b'.Fitted d l) {selects : List Select} (hcovered : l.Covered selects)
    (hstands : ∀ s ∈ selects, b.Stands s) (hstands' : ∀ s ∈ selects, b'.Stands s) : b = b' := by
  have hprg : b.prg = b'.prg := by
    apply hb.prg.eq_of_select hb'.prg
    intro page hpage
    obtain ⟨bank, hmem⟩ := hcovered.prg page hpage
    exact ⟨bank, stands_prg_iff.mp (hstands _ hmem), stands_prg_iff.mp (hstands' _ hmem)⟩
  have hchr : b.chr = b'.chr := by
    apply hb.chr.eq_of_select hb'.chr
    intro page hpage
    obtain ⟨bank, hmem⟩ := hcovered.chr page hpage
    exact ⟨bank, stands_chr_iff.mp (hstands _ hmem), stands_chr_iff.mp (hstands' _ hmem)⟩
  have hwram : b.wram = b'.wram := by
    apply hb.wram.eq_of_select hb'.wram
    intro page hpage
    obtain rfl : page = 0 := by omega
    obtain ⟨bank, hmem⟩ := hcovered.wram
    exact ⟨bank, stands_wram_iff.mp (hstands _ hmem), stands_wram_iff.mp (hstands' _ hmem)⟩
  obtain ⟨m, hmem⟩ := hcovered.mirroring
  obtain ⟨harranged, hname⟩ := stands_mirroring_iff.mp (hstands _ hmem)
  obtain ⟨harranged', hname'⟩ := stands_mirroring_iff.mp (hstands' _ hmem)
  have htables : b.nametables = b'.nametables := by
    apply hb.nametables.eq_of_select hb'.nametables
    intro table htable
    exact ⟨m.page table, Window.arrange_select harranged table htable,
      Window.arrange_select harranged' table htable⟩
  cases b
  cases b'
  simp only at hprg hchr hwram hname hname' htables
  rw [hprg, hchr, hwram, hname, hname', htables]

/-- An arrangement that is selected first and not again is the one that is left. -/
theorem Banks.applyAll_mirroring_cons {b b' : Banks} {m : Mirroring} {rest : List Select}
    (hrest : ∀ m', .mirroring m' ∉ rest) (h : b.applyAll (.mirroring m :: rest) = .ok b') :
    b'.mirroring = m := by
  obtain ⟨next, hnext, hlater⟩ := Fault.bind_eq_ok_iff.mp h
  rcases applyAll_mirroring hlater with hsame | hmem
  · rw [hsame]
    exact (stands_mirroring_iff.mp (apply_stands hnext)).2
  · exact absurd hmem (hrest _)

namespace Mmc1

/-! ## The simple chip -/

/-- The number that bits spell, lowest bit first. -/
def number : List Bool → Nat
  | [] => 0
  | bit :: rest => bit.toNat + 2 * number rest

theorem number_lt (bits : List Bool) : number bits < 2 ^ bits.length := by
  induction bits with
  | nil => exact Nat.one_pos
  | cons bit rest ih =>
    have hbit : bit.toNat ≤ 1 := bit.toNat_le
    rw [number, List.length_cons, Nat.pow_succ]
    omega

theorem number_append (bits : List Bool) (bit : Bool) :
    number (bits ++ [bit]) = number bits + 2 ^ bits.length * bit.toNat := by
  induction bits with
  | nil => simp [number]
  | cons first rest ih =>
    rw [List.cons_append, number, ih, number, List.length_cons, Nat.pow_succ, Nat.mul_add,
      Nat.mul_right_comm, Nat.mul_comm 2 (2 ^ rest.length * bit.toNat)]
    omega

/-- The chip as its registers see it. -/
structure Simple where
  /-- The bits collected so far, first to last. -/
  bits : List Bool := []
  mirroring : Mirroring
  prgMode : PrgMode := .fixLast
  chrMode : ChrMode := .whole
  chr0 : Nat := 0
  chr1 : Nat := 0
  prg : Nat := 0
  wramEnabled : Bool := true

namespace Simple

/-- A number of five bits reaches the register that the address names. -/
def commit (s : Simple) (addr n : Nat) : Simple :=
  if addr < 0xA000 then
    { s with
      mirroring := controlMirroring (.ofNat n)
      prgMode := controlPrgMode (.ofNat n)
      chrMode := controlChrMode (.ofNat n) }
  else if addr < 0xC000 then { s with chr0 := n }
  else if addr < 0xE000 then { s with chr1 := n }
  else { s with prg := n % 16, wramEnabled := n < 16 }

/-- A write below program memory goes unnoticed, a byte with its top bit set drops the bits and
fixes the last bank, and any other byte adds its lowest bit. -/
def write (s : Simple) (addr : UInt16) (value : UInt8) : Simple :=
  if addr.toNat < 0x8000 then s
  else if value.toNat.testBit 7 then { s with bits := [], prgMode := .fixLast }
  else if s.bits.length < 4 then { s with bits := s.bits ++ [value.toNat.testBit 0] }
  else { s with bits := [] }.commit addr.toNat (number (s.bits ++ [value.toNat.testBit 0]))

/-- The chip that a descriptor gives, after writes, first to last. -/
def after (d : Descriptor) (writes : List (UInt16 × UInt8)) : Simple :=
  writes.foldl (fun s w => s.write w.1 w.2) { mirroring := d.mirroring }

/-- The registers of the chip that hold the same: the bits stand at the top of the five. -/
def chip (d : Descriptor) (s : Simple) : Mmc1 where
  shift := .ofNat (number s.bits * 2 ^ (5 - s.bits.length))
  shiftCount := .ofNat s.bits.length
  prgMode := s.prgMode
  chrMode := s.chrMode
  chrSelect0 := .ofNat s.chr0
  chrSelect1 := .ofNat s.chr1
  prgSelect := .ofNat s.prg
  wramEnabled := s.wramEnabled
  outerPrg := d.prgSize == 0x80000
  wramBanks := d.wramSize / 0x2000

/-- All selections that they ask for. -/
def selects (d : Descriptor) (s : Simple) : List Select :=
  .mirroring s.mirroring :: (s.chip d).selects

/-- The banks that they ask for, in windows that nothing else has been selected in. -/
def banks (d : Descriptor) (s : Simple) : Except Fault Banks := do
  let plain ← Banks.powerOn d layout
  plain.applyAll (s.selects d)

/-! ## One write -/

variable {s : Simple} {addr : UInt16} {value : UInt8}

theorem toNat_lt_of_not_testBit (h : value.toNat.testBit 7 = false) : value.toNat < 128 := by
  have hlt : value.toNat < 256 := value.toNat_lt
  rw [Nat.testBit_eq_decide_div_mod_eq, decide_eq_false_iff_not] at h
  omega

/-- One more bit, shifted in from the top, is one more bit of the list. -/
theorem shifted_chip (hbits : s.bits.length < 5) :
    shifted (s.chip d).shift value =
      .ofNat (number (s.bits ++ [value.toNat.testBit 0]) * 2 ^ (4 - s.bits.length)) := by
  have hbit : (value.toNat.testBit 0).toNat = value.toNat % 2 := by
    rw [Nat.testBit_zero]
    rcases Nat.mod_two_eq_zero_or_one value.toNat with h | h <;> simp [h]
  -- The bits that are there stand below the place of the new one.
  have hlow : number s.bits * 2 ^ (4 - s.bits.length) < 2 ^ 4 := by
    have hscaled := Nat.mul_lt_mul_of_pos_right (number_lt s.bits)
      (Nat.two_pow_pos (4 - s.bits.length))
    rw [← Nat.pow_add, Nat.add_sub_cancel' (by omega)] at hscaled
    exact hscaled
  have hplace : 2 ^ s.bits.length * (value.toNat % 2) * 2 ^ (4 - s.bits.length) =
      2 ^ 4 * (value.toNat % 2) := by
    rw [Nat.mul_right_comm, ← Nat.pow_add, Nat.add_sub_cancel' (by omega)]
  have hshift : (s.chip d).shift.toNat = number s.bits * 2 ^ (4 - s.bits.length) * 2 := by
    rw [Nat.mul_assoc, ← Nat.pow_succ, Nat.succ_eq_add_one,
      show 4 - s.bits.length + 1 = 5 - s.bits.length by omega]
    refine UInt8.toNat_ofNat_of_lt' (show _ < 256 from ?_)
    rw [show 5 - s.bits.length = 4 - s.bits.length + 1 by omega, Nat.pow_succ, ← Nat.mul_assoc]
    omega
  rw [number_append, hbit, Nat.add_mul, hplace]
  apply UInt8.toNat_inj.mp
  rw [UInt8.toNat_ofNat_of_lt' (show _ < 256 by omega), shifted]
  simp only [UInt8.toNat_or, UInt8.toNat_div, UInt8.toNat_mul, UInt8.toNat_mod, UInt8.reduceToNat,
    hshift]
  rw [Nat.mul_div_cancel _ (by decide),
    Nat.mod_eq_of_lt (show value.toNat % 2 * 16 < 256 by omega), Nat.or_comm,
    Nat.mul_comm (value.toNat % 2) 16, Nat.add_comm]
  exact (Nat.two_pow_add_eq_or_of_lt hlow (value.toNat % 2)).symm

theorem collect_registers (hbits : s.bits.length < 4) :
    { s.chip d with
      shift := shifted (s.chip d).shift value
      shiftCount := (s.chip d).shiftCount + 1 } =
      { s with bits := s.bits ++ [value.toNat.testBit 0] }.chip d := by
  have hcount : (s.chip d).shiftCount + 1 = .ofNat (s.bits.length + 1) :=
    (UInt8.ofNat_add s.bits.length 1).symm
  rw [shifted_chip (by omega), hcount, show 4 - s.bits.length = 5 - (s.bits.length + 1) by omega,
    ← List.length_singleton, ← List.length_append]
  rfl

theorem commit_registers {n : Nat} (hn : n < 32) (addr : Nat) :
    ((s.chip d).commit addr (.ofNat n)).registers =
      ({ s with bits := [] }.commit addr n).chip d := by
  have hwide : ∀ n < 32, UInt8.ofNat n % 32 = .ofNat n := by decide
  have hnarrow : ∀ n < 32, UInt8.ofNat n % 16 = .ofNat (n % 16) := by decide
  have htop : ∀ n < 32, (!(UInt8.ofNat n).toNat.testBit 4) = decide (n < 16) := by decide
  unfold Mmc1.commit commit
  simp only [hwide n hn, hnarrow n hn, htop n hn]
  repeat' split
  all_goals rfl

theorem commit_mirroring {n : Nat} {addr : Nat} {b b' : Banks} (hb : b.mirroring = s.mirroring)
    (h : b.applyAll ((s.chip d).commit addr (.ofNat n)).selects = .ok b') :
    b'.mirroring = ({ s with bits := [] }.commit addr n).mirroring := by
  have hkept : ∀ {r : Mmc1}, b.applyAll r.selects = .ok b' → b'.mirroring = s.mirroring := by
    intro r h
    rcases Banks.applyAll_mirroring h with hsame | hmem
    · exact hsame.trans hb
    · exact absurd hmem r.mirroring_not_mem
  unfold Mmc1.commit at h
  unfold commit
  simp only at h
  by_cases hcontrol : addr < 0xA000
  · rw [if_pos hcontrol] at h ⊢
    exact Banks.applyAll_mirroring_cons (fun _ => mirroring_not_mem _) h
  · rw [if_neg hcontrol] at h ⊢
    by_cases hfirst : addr < 0xC000
    · rw [if_pos hfirst] at h ⊢
      exact hkept h
    · rw [if_neg hfirst] at h ⊢
      by_cases hsecond : addr < 0xE000
      · rw [if_pos hsecond] at h ⊢
        exact hkept h
      · rw [if_neg hsecond] at h ⊢
        exact hkept h

theorem commit_bits (s : Simple) (addr n : Nat) : (s.commit addr n).bits = s.bits := by
  unfold commit
  repeat' split
  all_goals rfl

theorem write_bits (hbits : s.bits.length < 5) : (s.write addr value).bits.length < 5 := by
  unfold write
  split
  · exact hbits
  · split
    · exact Nat.zero_lt_succ 4
    · split
      · rw [List.length_append, List.length_singleton]
        omega
      · rw [commit_bits]
        exact Nat.zero_lt_succ 4

/-- The chip and the simple one make the same of a write. -/
theorem write_chip (hbits : s.bits.length < 5) (addr : UInt16) (value : UInt8) :
    ∃ reply, (s.chip d).write addr.toNat value = .ok reply ∧
      reply.registers = (s.write addr value).chip d ∧
      ∀ b b' : Banks, b.mirroring = s.mirroring → b.applyAll reply.selects = .ok b' →
        b'.mirroring = (s.write addr value).mirroring := by
  by_cases haddr : addr.toNat < 0x8000
  · refine ⟨{ registers := s.chip d }, if_pos haddr, ?_, ?_⟩
    · rw [write, if_pos haddr]
    · rintro b _ hb ⟨⟩
      rw [write, if_pos haddr]
      exact hb
  cases hreset : value.toNat.testBit 7 with
  | true =>
    have hwrite : s.write addr value = { s with bits := [], prgMode := .fixLast } := by
      rw [write, if_neg haddr, if_pos hreset]
    refine ⟨(s.chip d).reset, ?_, ?_, ?_⟩
    · rw [Mmc1.write, if_neg haddr, if_pos hreset]
    · rw [hwrite]
      rfl
    · intro b b' hb h
      rw [hwrite]
      rcases Banks.applyAll_mirroring h with hsame | hmem
      · exact hsame.trans hb
      · exact absurd hmem (mirroring_not_mem _)
  | false =>
    have hvalue := toNat_lt_of_not_testBit hreset
    have hwrite : s.write addr value =
        if s.bits.length < 4 then { s with bits := s.bits ++ [value.toNat.testBit 0] }
        else { s with bits := [] }.commit addr.toNat
          (number (s.bits ++ [value.toNat.testBit 0])) := by
      rw [write, if_neg haddr, hreset, if_neg (by decide)]
    by_cases hfew : s.bits.length < 4
    · rw [if_pos hfew] at hwrite
      have hcount : (s.chip d).shiftCount < 4 := by
        have hsmall := UInt8.toNat_ofNat_of_lt' (show s.bits.length < 256 by omega)
        rw [UInt8.lt_iff_toNat_lt, chip, hsmall]
        exact hfew
      have hbit : { s.chip d with shift := (s.chip d).shift }.write addr.toNat value = _ :=
        write_bit (Nat.le_of_not_lt haddr) hvalue hcount
      refine ⟨_, hbit, ?_, ?_⟩
      · rw [hwrite]
        exact collect_registers hfew
      · rintro b _ hb ⟨⟩
        rw [hwrite]
        exact hb
    · have hfour : s.bits.length = 4 := by omega
      rw [if_neg hfew] at hwrite
      have hcount : (s.chip d).shiftCount = 4 := congrArg UInt8.ofNat hfour
      have hlast : { s.chip d with shiftCount := 4 }.write addr.toNat value = _ :=
        write_lastBit (Nat.le_of_not_lt haddr) hvalue
      rw [shifted_chip hbits, hfour, Nat.sub_self, Nat.pow_zero, Nat.mul_one, ← hcount] at hlast
      have hn : number (s.bits ++ [value.toNat.testBit 0]) < 32 := by
        have hlt := number_lt (s.bits ++ [value.toNat.testBit 0])
        rw [List.length_append, hfour] at hlt
        exact hlt
      refine ⟨_, hlast, ?_, ?_⟩
      · rw [hwrite]
        exact commit_registers hn _
      · intro b b' hb h
        rw [hwrite]
        exact commit_mirroring hb h

/-! ## All writes -/

theorem layout_covered (s : Simple) : layout.Covered (s.selects d) where
  prg := by
    intro page (hpage : page < 2)
    obtain rfl | rfl : page = 0 ∨ page = 1 := by omega
    all_goals
      unfold selects Mmc1.selects prgSelects
      cases (s.chip d).prgMode <;> simp
  chr := by
    intro page (hpage : page < 2)
    obtain rfl | rfl : page = 0 ∨ page = 1 := by omega
    all_goals
      unfold selects Mmc1.selects chrSelects
      cases (s.chip d).chrMode <;> simp
  wram := ⟨(s.chip d).wramBank, by simp [selects, Mmc1.selects]⟩
  mirroring := ⟨s.mirroring, List.mem_cons_self ..⟩

theorem selects_nodup (s : Simple) : ((s.selects d).map Select.slot).Nodup := by
  refine List.nodup_cons.mpr ⟨?_, Mmc1.selects_nodup _⟩
  intro hmem
  obtain ⟨t, ht, hslot⟩ := List.mem_map.mp hmem
  obtain ⟨m, rfl⟩ := Select.eq_mirroring hslot
  exact mirroring_not_mem _ ht

theorem selects_fits (s : Simple) : ∀ t ∈ s.selects d, t.Fits d layout := by
  intro t ht
  rcases List.mem_cons.mp ht with rfl | ht
  · trivial
  · exact Mmc1.selects_fits _ t ht

end Simple

end Mmc1

namespace Cartridge

open Mmc1 (Simple)

variable {c : Cartridge} {s : Simple}

/-- The registers of the cartridge hold what the simple chip holds. -/
structure Follows (d : Descriptor) (c : Cartridge) (s : Simple) : Prop where
  bits : s.bits.length < 5
  board : c.board = .mmc1 (s.chip d)
  mirroring : c.mirroring = s.mirroring

namespace Follows

theorem load {prg chr : Memory} {notes : List Note}
    (h : Cartridge.load d prg chr = .ok { value := .ok c, notes }) (hkind : c.board.kind = .mmc1) :
    c.Follows d (Simple.after d []) := by
  obtain ⟨_, _, _, ⟨found, hfound⟩, _⟩ := load_eq_ok h
  obtain ⟨k, reply, plain, hstart, hplain, hbanks, hboard⟩ :=
    Registry.configureFrom_eq_some hfound
  obtain rfl : k = .mmc1 := by
    rw [hboard, (BoardKind.start_keeps hstart).kind] at hkind
    exact hkind
  obtain ⟨own, hown, rfl⟩ := Option.map_eq_some_iff.mp hstart
  obtain ⟨_, r, hr, rfl⟩ := Mmc1.start?_eq_some hown
  refine ⟨Nat.zero_lt_succ 4, ?_, ?_⟩
  · rw [hboard, hr]
    rfl
  · rcases Banks.applyAll_mirroring hbanks with hsame | hmem
    · exact hsame.trans (Banks.powerOn_mirroring hplain).1
    · exact absurd hmem r.mirroring_not_mem

/-- The two stay in step through any writes. -/
theorem exists_writeAll (h : c.Follows d s) (hc : c.Reachable d) (writes : List (UInt16 × UInt8)) :
    ∃ c', c.writeAll writes = .ok c' ∧ c'.Reachable d ∧
      c'.Follows d (writes.foldl (fun s w => s.write w.1 w.2) s) := by
  induction writes generalizing c s with
  | nil => exact ⟨c, rfl, hc, h⟩
  | cons w rest ih =>
    obtain ⟨written, reply, hwritten, hreachable, hreply, hbanks, hboard, _⟩ :=
      hc.exists_write w.1 w.2
    obtain ⟨own, hown, hregisters, hmirroring⟩ := Simple.write_chip (d := d) h.bits w.1 w.2
    have hsame : c.board.write w.1 w.2 = .ok (own.map .mmc1) := by
      rw [h.board]
      exact Fault.bind_eq_ok_iff.mpr ⟨own, hown, rfl⟩
    obtain rfl := Except.ok.inj (hreply.symm.trans hsame)
    have hnext : written.value.Follows d (s.write w.1 w.2) :=
      ⟨Simple.write_bits h.bits, hboard.trans (congrArg Board.mmc1 hregisters),
        hmirroring c.banks written.value.banks h.mirroring hbanks⟩
    obtain ⟨c', hrest, hlast, hfollows⟩ := ih hnext hreachable
    refine ⟨c', ?_, hlast, hfollows⟩
    simp only [writeAll, List.foldlM_cons, hwritten]
    exact hrest

/-- The banks are those that the simple chip asks for, since it leaves none of them open. -/
theorem banks (h : c.Follows d s) (hc : c.Reachable d) : s.banks d = .ok c.banks := by
  have hfitted := hc.wellFormed.banks
  have hstands := hc.stands
  rw [h.board] at hfitted hstands
  obtain ⟨plain, hplain⟩ :=
    Banks.exists_powerOn hc.wellFormed.valid (BoardKind.layout_covers .mmc1)
  have hplain' := Banks.powerOn_fitted hplain
  obtain ⟨b, hb⟩ := Banks.exists_applyAll hplain' s.selects_fits
  have hasked : ∀ t ∈ s.selects d, b.Stands t := fun t ht =>
    Banks.applyAll_stands hb (Select.last?_of_nodup s.selects_nodup ht)
  have hshown : ∀ t ∈ s.selects d, c.banks.Stands t := by
    intro t ht
    rcases List.mem_cons.mp ht with rfl | ht
    · rw [← h.mirroring]
      exact hc.coherent
    · exact hstands t (List.mem_append_left _ ht)
  rw [(Banks.applyAll_fitted hplain' hb).eq_of_stands hfitted s.layout_covered hasked hshown] at hb
  exact Fault.bind_eq_ok_iff.mpr ⟨plain, hplain, hb⟩

end Follows

end Cartridge

open Mmc1 (Simple)

end GamePak
