import GamePak.Proofs.Registry
import GamePak.Snapshot

/-!
What restoring a snapshot does. The board and the banks that the registry gives the descriptor
decide, with the work RAM of the cartridge, whether the snapshot is taken; what the cartridge has
been through does not. A snapshot that is taken replaces the board, the work RAM and every page.
-/

namespace GamePak

namespace BoardKind

/-- A board can be looked up by its name. -/
theorem find?_name (k : BoardKind) : Registry.kinds.find? (fun j => j.name == k.name) = some k := by
  cases k with
  | discrete b => cases b <;> rfl
  | mmc1 => rfl
  | mmc2 => rfl
  | mmc3 => rfl
  | fcg => rfl
  | vrc4 => rfl
  | fme7 => rfl
  | codemasters => rfl
  | vrc3 => rfl

theorem name_inj {j k : BoardKind} : j.name = k.name ↔ j = k := by
  constructor
  · intro h
    have hfind := j.find?_name
    rw [h, k.find?_name] at hfind
    exact (Option.some.inj hfind).symm
  · rintro rfl
    rfl

end BoardKind

/-- The registers that can be out of range are the prescaler of a timer and the bit count of the
MMC1. -/
theorem Board.valid_iff {b : Board} :
    b.Valid ↔ (∀ t ∈ b.timer?, 0 ≤ t.prescaler ∧ t.prescaler ≤ 341) ∧
      ∀ r, b = .mmc1 r → r.shiftCount < 5 := by
  cases b with
  | mmc1 r => simp [Valid, Mmc1.Valid, timer?]
  | _ => simp [Valid, Timer.Valid, Timer.period]

namespace Snapshot

variable {s : Snapshot} {c : Cartridge} {fresh : Board} {banks : Banks}

/-- What restoring asks of a snapshot, in the order in which it asks, and the error if that is what
the snapshot fails first. -/
def checks (s : Snapshot) (c : Cartridge) (fresh : Board) (banks : Banks) :
    List (Bool × RestoreError) :=
  [(s.version = 1, .version s.version),
    (s.descriptor = c.descriptor, .descriptor),
    (s.board.kind = fresh.kind, .board s.board.name fresh.name),
    (s.board.Valid, .layout .board),
    (s.prgPages.length = banks.prg.pageCount, .layout .prg),
    (s.chrPages.length = banks.chr.pageCount, .layout .chr),
    (s.wramPages.length = banks.wram.pageCount, .layout .wram),
    (s.nametablePages.length = banks.nametables.pageCount, .layout .nametable),
    (s.wram.size = c.wram.size, .layout .wram)]

/-- The error of the first check that a snapshot fails. -/
def refusal? (s : Snapshot) (c : Cartridge) (fresh : Board) (banks : Banks) :
    Option RestoreError :=
  ((s.checks c fresh banks).find? fun check => !check.1).map (·.2)

/-- The snapshot suits a cartridge that had the given board and banks at power-on. -/
structure Suits (s : Snapshot) (c : Cartridge) (fresh : Board) (banks : Banks) : Prop where
  version : s.version = 1
  descriptor : s.descriptor = c.descriptor
  kind : s.board.kind = fresh.kind
  prescaler : ∀ t ∈ s.board.timer?, 0 ≤ t.prescaler ∧ t.prescaler ≤ 341
  shiftCount : ∀ r, s.board = .mmc1 r → r.shiftCount < 5
  prgPages : s.prgPages.length = banks.prg.pageCount
  chrPages : s.chrPages.length = banks.chr.pageCount
  wramPages : s.wramPages.length = banks.wram.pageCount
  nametablePages : s.nametablePages.length = banks.nametables.pageCount
  wram : s.wram.size = c.wram.size

theorem Suits.valid (h : s.Suits c fresh banks) : s.board.Valid :=
  Board.valid_iff.mpr ⟨h.prescaler, h.shiftCount⟩

theorem refusal?_eq_none_iff : s.refusal? c fresh banks = none ↔ s.Suits c fresh banks := by
  constructor
  · intro h
    simp only [refusal?, checks, Option.map_eq_none_iff, List.find?_eq_none, List.forall_mem_cons,
      Bool.not_eq_true', decide_eq_false_iff_not, Decidable.not_not] at h
    obtain ⟨hversion, hdescriptor, hkind, hvalid, hprg, hchr, hwram, htables, hbytes, _⟩ := h
    obtain ⟨hprescaler, hshift⟩ := Board.valid_iff.mp hvalid
    exact ⟨hversion, hdescriptor, hkind, hprescaler, hshift, hprg, hchr, hwram, htables, hbytes⟩
  · intro h
    simp [refusal?, checks, h.version, h.descriptor, h.kind, h.valid, h.prgPages, h.chrPages,
      h.wramPages, h.nametablePages, h.wram]

/-- Banks at power-on with the pages and the arrangement of a snapshot put in. -/
def banksOver (s : Snapshot) (banks : Banks) : Banks where
  prg := { banks.prg with pages := s.prgPages.map (· % banks.prg.bankCount) }
  chr := { banks.chr with pages := s.chrPages.map (· % banks.chr.bankCount) }
  wram := { banks.wram with pages := s.wramPages.map (· % banks.wram.bankCount) }
  nametables := { banks.nametables with
    pages := s.nametablePages.map (· % banks.nametables.bankCount) }
  mirroring := s.mirroring

theorem Suits.banksOver_fitted {d : Descriptor} {l : Layout} (h : s.Suits c fresh banks)
    (hb : banks.Fitted d l) : (s.banksOver banks).Fitted d l where
  prg := hb.prg.reduce (h.prgPages.trans hb.prg.pageCount_eq)
  chr := hb.chr.reduce (h.chrPages.trans hb.chr.pageCount_eq)
  wram := hb.wram.reduce (h.wramPages.trans hb.wram.pageCount_eq)
  nametables := hb.nametables.reduce (h.nametablePages.trans hb.nametables.pageCount_eq)

/-- The cartridge that a snapshot leaves. -/
def installed (s : Snapshot) (c : Cartridge) (banks : Banks) : Cartridge :=
  { c with banks := s.banksOver banks, board := s.board, wram := s.wram }

section

variable {d : Descriptor} {l : Layout} {arranged : Banks}

/-- The pages that the arrangement selects are all selected again. -/
theorem restoreBanks_eq (hb : banks.Fitted d l)
    (h : banks.setMirroring s.mirroring = .ok arranged) :
    s.restoreBanks arranged =
      if s.prgPages.length ≠ banks.prg.pageCount then .error (.layout .prg)
      else if s.chrPages.length ≠ banks.chr.pageCount then .error (.layout .chr)
      else if s.wramPages.length ≠ banks.wram.pageCount then .error (.layout .wram)
      else if s.nametablePages.length ≠ banks.nametables.pageCount then
        .error (.layout .nametable)
      else .ok (s.banksOver banks) := by
  obtain ⟨tables, htables, heq⟩ := Fault.bind_eq_ok_iff.mp h
  cases heq
  unfold restoreBanks
  rw [(hb.nametables.arrange htables).restore?_congr hb.nametables, hb.prg.restore?_eq,
    hb.chr.restore?_eq, hb.wram.restore?_eq, hb.nametables.restore?_eq, hb.prg.pageCount_eq,
    hb.chr.pageCount_eq, hb.wram.pageCount_eq, hb.nametables.pageCount_eq]
  by_cases hprg : s.prgPages.length = l.prgPages
  · by_cases hchr : s.chrPages.length = l.chrPages
    · by_cases hwram : s.wramPages.length = 1
      · by_cases htable : s.nametablePages.length = 4
        · simp [hprg, hchr, hwram, htable, banksOver]
        · simp [hprg, hchr, hwram, htable]
      · simp [hprg, hchr, hwram]
    · simp [hprg, hchr]
  · simp [hprg]

theorem install_eq (c : Cartridge) (fresh : Board) (hb : banks.Fitted d l)
    (h : banks.setMirroring s.mirroring = .ok arranged)
    (hversion : s.version = 1) (hdescriptor : s.descriptor = c.descriptor) :
    c.install s fresh arranged =
      match s.refusal? c fresh banks with
      | some e => .error e
      | none => .ok (s.installed c banks) := by
  unfold Cartridge.install
  rw [restoreBanks_eq hb h]
  by_cases hkind : s.board.kind = fresh.kind
  · have hname : s.board.name = fresh.name := congrArg BoardKind.name hkind
    rw [if_neg (not_not_intro hname)]
    by_cases hvalid : s.board.Valid
    · rw [if_neg (not_not_intro hvalid)]
      by_cases hprg : s.prgPages.length = banks.prg.pageCount
      · by_cases hchr : s.chrPages.length = banks.chr.pageCount
        · by_cases hwram : s.wramPages.length = banks.wram.pageCount
          · by_cases htable : s.nametablePages.length = banks.nametables.pageCount
            · by_cases hbytes : s.wram.size = c.wram.size
              · simp [refusal?, checks, *, installed]
              · simp [refusal?, checks, *]
            · simp [refusal?, checks, *]
          · simp [refusal?, checks, *]
        · simp [refusal?, checks, *]
      · simp [refusal?, checks, *]
    · rw [if_pos hvalid]
      simp [refusal?, checks, *]
  · have hname : s.board.name ≠ fresh.name := fun heq => hkind (BoardKind.name_inj.mp heq)
    rw [if_pos hname]
    simp [refusal?, checks, *]

end

end Snapshot

namespace Cartridge

variable {c c' : Cartridge} {s : Snapshot} {fresh : Board} {banks : Banks} {found : List Note}

theorem restore_of_suits
    (hfound : Registry.configure c.descriptor =
      .ok { value := some (fresh, banks), notes := found })
    (h : s.Suits c fresh banks) :
    c.restore s = .ok { value := .ok (s.installed c banks), notes := found } := by
  have hfitted := (Registry.configure_fitted hfound).2
  obtain ⟨arranged, harranged⟩ := Banks.exists_setMirroring hfitted s.mirroring
  have hinstall := Snapshot.install_eq c fresh hfitted harranged h.version h.descriptor
  rw [Snapshot.refusal?_eq_none_iff.mpr h] at hinstall
  unfold restore Snapshot.currentVersion
  rw [if_neg (not_not_intro h.version), if_neg (not_not_intro h.descriptor), hfound]
  simp only [bind, Except.bind, harranged, hinstall]
  rfl

theorem restore_of_refusal {e : RestoreError}
    (hfound : Registry.configure c.descriptor =
      .ok { value := some (fresh, banks), notes := found })
    (h : s.refusal? c fresh banks = some e) :
    ∃ notes, c.restore s = .ok { value := .error e, notes } := by
  unfold restore Snapshot.currentVersion
  by_cases hversion : s.version = 1
  · rw [if_neg (not_not_intro hversion)]
    by_cases hdescriptor : s.descriptor = c.descriptor
    · have hfitted := (Registry.configure_fitted hfound).2
      obtain ⟨arranged, harranged⟩ := Banks.exists_setMirroring hfitted s.mirroring
      have hinstall := Snapshot.install_eq c fresh hfitted harranged hversion hdescriptor
      rw [h] at hinstall
      rw [if_neg (not_not_intro hdescriptor), hfound]
      simp only [bind, Except.bind, harranged, hinstall]
      exact ⟨_, rfl⟩
    · have he : e = .descriptor := by
        simpa [Snapshot.refusal?, Snapshot.checks, hversion, hdescriptor, eq_comm] using h
      rw [if_pos hdescriptor, he]
      exact ⟨_, rfl⟩
  · have he : e = .version s.version := by
      simpa [Snapshot.refusal?, Snapshot.checks, hversion, eq_comm] using h
    rw [if_pos hversion, he]
    exact ⟨_, rfl⟩

/-- A restore that succeeds, taken apart. -/
theorem restore_eq_ok {notes : List Note} (h : c.restore s = .ok { value := .ok c', notes }) :
    ∃ fresh banks,
      Registry.configure c.descriptor = .ok { value := some (fresh, banks), notes } ∧
      s.Suits c fresh banks ∧ c' = s.installed c banks := by
  have hopened := h
  unfold restore at hopened
  split at hopened
  · cases hopened
  · split at hopened
    · cases hopened
    · obtain ⟨⟨value, found⟩, hfound, hopened⟩ := Fault.bind_eq_ok_iff.mp hopened
      cases value with
      | none => cases hopened
      | some pair =>
        obtain ⟨fresh, banks⟩ := pair
        cases hrefusal : s.refusal? c fresh banks with
        | some e =>
          obtain ⟨refused, hrefused⟩ := restore_of_refusal hfound hrefusal
          rw [hrefused] at h
          cases h
        | none =>
          have hsuits := Snapshot.refusal?_eq_none_iff.mp hrefusal
          rw [restore_of_suits hfound hsuits] at h
          cases h
          exact ⟨fresh, banks, hfound, hsuits, rfl⟩

/-! ## Restoring what was taken -/

theorem banksOver_snapshot {d : Descriptor} {l : Layout} (hb : banks.Fitted d l)
    (hc : c.banks.Fitted d l) : c.snapshot.banksOver banks = c.banks := by
  have hprg := hb.prg.reduce_pages hc.prg
  have hchr := hb.chr.reduce_pages hc.chr
  have hwram := hb.wram.reduce_pages hc.wram
  have htables := hb.nametables.reduce_pages hc.nametables
  simp only [Snapshot.banksOver, snapshot, hprg, hchr, hwram, htables]

section

variable {e : Cartridge}

theorem snapshot_suits {d : Descriptor} {l : Layout} (hdescriptor : c.descriptor = e.descriptor)
    (hkind : c.board.kind = fresh.kind) (hvalid : c.board.Valid) (hb : banks.Fitted d l)
    (hc : c.banks.Fitted d l) (hwram : c.wram.size = e.wram.size) :
    c.snapshot.Suits e fresh banks where
  version := rfl
  descriptor := hdescriptor
  kind := hkind
  prescaler := (Board.valid_iff.mp hvalid).1
  shiftCount := (Board.valid_iff.mp hvalid).2
  prgPages := hc.prg.pageCount_eq.trans hb.prg.pageCount_eq.symm
  chrPages := hc.chr.pageCount_eq.trans hb.chr.pageCount_eq.symm
  wramPages := hc.wram.pageCount_eq.trans hb.wram.pageCount_eq.symm
  nametablePages := hc.nametables.pageCount_eq.trans hb.nametables.pageCount_eq.symm
  wram := hwram

/-- The snapshot of a cartridge in order is taken by every cartridge of the same descriptor that has
as much work RAM, and all of its state comes across. -/
theorem restore_snapshot
    (hfound : Registry.configure e.descriptor =
      .ok { value := some (fresh, banks), notes := found })
    (hdescriptor : c.descriptor = e.descriptor) (hkind : c.board.kind = fresh.kind)
    (hvalid : c.board.Valid) (hc : c.banks.Fitted e.descriptor fresh.kind.layout)
    (hwram : c.wram.size = e.wram.size) :
    e.restore c.snapshot =
      .ok {
        value := .ok { e with banks := c.banks, board := c.board, wram := c.wram }
        notes := found } := by
  have hb := (Registry.configure_fitted hfound).2
  have hsuits := snapshot_suits hdescriptor hkind hvalid hb hc hwram
  rw [restore_of_suits hfound hsuits, Snapshot.installed, banksOver_snapshot hb hc]
  rfl

end

end Cartridge

end GamePak
