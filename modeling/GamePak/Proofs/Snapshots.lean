import GamePak.Proofs.Safety
import GamePak.Proofs.Selections

/-!
Snapshots of whole cartridges. A snapshot carries a reachable cartridge over to any other of its
descriptor, and from then on nothing tells the two apart. A snapshot from elsewhere is taken or
refused by its own contents and the descriptor alone, a refusal changes nothing, and what is taken
leaves no trace of the past.
-/

namespace GamePak

variable {d : Descriptor} {c e : Cartridge}

namespace Cartridge

theorem WellFormed.exists_restore_snapshot (hc : c.WellFormed d) (he : e.WellFormed d) :
    ∃ notes, e.restore c.snapshot = .ok {
      value := .ok { e with banks := c.banks, board := c.board, wram := c.wram }
      notes } := by
  obtain ⟨fresh, banks, found, hfound, hkind⟩ := hc.chosen
  have hbanks := hc.banks
  rw [← he.descriptor] at hfound hbanks
  rw [← hkind] at hbanks
  have hdescriptor : c.descriptor = e.descriptor := hc.descriptor.trans he.descriptor.symm
  have hwram : c.wram.size = e.wram.size := hc.wram_size.trans he.wram_size.symm
  exact ⟨_, restore_snapshot hfound hdescriptor hkind.symm hc.board hbanks hwram⟩

end Cartridge

/-- The snapshot of a reachable cartridge can be restored on every other reachable cartridge of the
same descriptor. All that the snapshot is about comes across; over the same images the two then
answer every run alike. -/
theorem snapshot_round_trip (hc : c.Reachable d) (he : e.Reachable d) :
    ∃ e' notes, e.restore c.snapshot = .ok { value := .ok e', notes } ∧
      e'.banks = c.banks ∧ e'.mirroring = c.mirroring ∧ e'.board = c.board ∧ e'.wram = c.wram ∧
      e'.prg = e.prg ∧ e'.chr = e.chr ∧
      (e.prg = c.prg → e.chr = c.chr → ∀ video commands,
        Machine.run { cartridge := e', video } commands =
          Machine.run { cartridge := c, video } commands) := by
  have hcart := hc.wellFormed
  have hother := he.wellFormed
  obtain ⟨notes, hrestore⟩ := hcart.exists_restore_snapshot hother
  refine ⟨_, notes, hrestore, rfl, rfl, rfl, rfl, rfl, rfl, ?_⟩
  intro hprg hchr video commands
  have hdescriptor : e.descriptor = c.descriptor := hother.descriptor.trans hcart.descriptor.symm
  rw [hprg, hchr, hdescriptor]

/-- From a cartridge with save RAM, a running timer and a program page put on a bank to one that has
just been loaded. -/
theorem snapshot_round_trip_smallFme7 :
    ∃ c notes, Cartridge.load .smallFme7 (.zeroed 0x8000) #[] = .ok { value := .ok c, notes } ∧
      c.board = .fme7 {} ∧
      ∃ timed written, c.writeAll [(0x8000, 13), (0xA000, 0x81), (0x8000, 9)] = .ok timed ∧
        timed.write 0xA000 2 = .ok written ∧
        ∃ played, written.value.loadSaveRam (.replicate 0x800 7) = .ok played ∧
        ∃ e' notes', c.restore played.snapshot = .ok { value := .ok e', notes := notes' } ∧
          e'.banks.prg.bank 1 = .ok 2 ∧
          e'.board = .fme7 {
            command := 9
            timer := { counter := .down16, ack := .registerWrite, enabled := true } } ∧
          e'.wram = .replicate 0x800 7 ∧
          ∀ video commands, Machine.run { cartridge := e', video } commands =
            Machine.run { cartridge := played, video } commands := by
  obtain ⟨c, notes, hload, hboard⟩ := Descriptor.smallFme7_load
  have hc : c.Reachable .smallFme7 := .load hload
  obtain ⟨timed, htimed, htimedReachable, hafter, hprg⟩ :=
    hc.exists_writeAll [(0x8000, 13), (0xA000, 0x81), (0x8000, 9)]
  obtain ⟨written, reply, hwritten, hreachable, hreply, hbanks, hregisters, hprg'⟩ :=
    htimedReachable.exists_write 0xA000 2
  rw [hboard] at hafter
  rw [← Except.ok.inj hafter] at hreply
  cases hreply
  have hcart := hreachable.wellFormed
  have hbank : written.value.banks.prg.bank 1 = .ok 2 := by
    have hstands : written.value.banks.Stands (.prg 1 2) := Banks.applyAll_stands hbanks rfl
    have hcut := hcart.banks.prg
    rw [hregisters] at hcut
    rw [Window.bank_of_select (Banks.stands_prg_iff.mp hstands), hcut.and_bankMask,
      hcut.bankCount_eq]
    rfl
  have hsize : (Array.replicate 0x800 (7 : UInt8)).size = written.value.wram.size := by
    rw [hcart.wram_size]
    exact Array.size_replicate
  have hsaved : written.value.loadSaveRam (.replicate 0x800 7) =
      .ok { written.value with wram := .replicate 0x800 7 } := if_pos hsize
  have hchr : c.chr = written.value.chr := by
    rw [Array.eq_empty_of_size_eq_zero hc.wellFormed.chr_size,
      Array.eq_empty_of_size_eq_zero hcart.chr_size]
  obtain ⟨e', notes', hrestore, hcame, _, hboard', hwram, _, _, hruns⟩ :=
    snapshot_round_trip (.loadSave hreachable hsaved) hc
  exact ⟨c, notes, hload, hboard, timed, written, htimed, hwritten, _, hsaved, e', notes', hrestore,
    hcame ▸ hbank, hboard'.trans hregisters, hwram, hruns (hprg'.trans hprg).symm hchr⟩

/-! ## What is taken and what is refused -/

/-- The registry gives the descriptor of every cartridge a board and banks. A snapshot is taken
exactly if it suits them; else the first check that it fails says which error comes back, and
the machine stays as it was. -/
theorem restore_accepts_exactly (hc : c.Driven d) :
    ∃ fresh banks found,
      Registry.configure c.descriptor = .ok { value := some (fresh, banks), notes := found } ∧
      ∀ s : Snapshot,
        ((∃ c' notes, c.restore s = .ok { value := .ok c', notes }) ↔ s.Suits c fresh banks) ∧
        (∀ error, (∃ notes, c.restore s = .ok { value := .error error, notes }) ↔
          s.refusal? c fresh banks = some error) ∧
        ∀ error, s.refusal? c fresh banks = some error → ∀ video,
          Machine.perform { cartridge := c, video } (.restore s) =
            .ok ({ cartridge := c, video }, .snapshotRefused error) := by
  have hcart := hc.wellFormed
  obtain ⟨fresh, banks, found, hfound, _⟩ := hcart.chosen
  rw [← hcart.descriptor] at hfound
  refine ⟨fresh, banks, found, hfound, ?_⟩
  intro s
  refine ⟨⟨?_, ?_⟩, ?_, ?_⟩
  · rintro ⟨c', notes, hrestore⟩
    obtain ⟨_, _, hagain, hsuits, _⟩ := Cartridge.restore_eq_ok hrestore
    rw [hfound] at hagain
    cases hagain
    exact hsuits
  · intro hsuits
    exact ⟨_, _, Cartridge.restore_of_suits hfound hsuits⟩
  · intro error
    constructor
    · rintro ⟨notes, hrestore⟩
      cases hrefusal : s.refusal? c fresh banks with
      | none =>
        have hsuits := Snapshot.refusal?_eq_none_iff.mp hrefusal
        rw [Cartridge.restore_of_suits hfound hsuits] at hrestore
        cases hrestore
      | some first =>
        obtain ⟨_, hrefused⟩ := Cartridge.restore_of_refusal hfound hrefusal
        rw [hrefused] at hrestore
        cases hrestore
        rfl
    · exact Cartridge.restore_of_refusal hfound
  · intro error hrefusal video
    obtain ⟨notes, hrefused⟩ := Cartridge.restore_of_refusal hfound hrefusal
    exact Fault.bind_eq_ok_iff.mpr ⟨_, hrefused, rfl⟩

/-- Of two defects the one in the nametable pages is found before the one in the work RAM. -/
theorem restore_accepts_exactly_smallFme7 :
    ∃ c notes, Cartridge.load .smallFme7 (.zeroed 0x8000) #[] = .ok { value := .ok c, notes } ∧
      (∃ c' notes', c.restore c.snapshot = .ok { value := .ok c', notes := notes' }) ∧
      ∃ notes', c.restore { c.snapshot with nametablePages := [], wram := #[] } =
        .ok { value := .error (.layout .nametable), notes := notes' } := by
  obtain ⟨c, notes, hload, _⟩ := Descriptor.smallFme7_load
  have hcart := Cartridge.load_wellFormed hload
  obtain ⟨fresh, banks, _, hfound, hrestore⟩ := restore_accepts_exactly (.load hload)
  obtain ⟨_, hself⟩ := hcart.exists_restore_snapshot hcart
  have hsuits := (hrestore c.snapshot).1.mp ⟨_, _, hself⟩
  have htables := (Registry.configure_fitted hfound).2.nametables.pageCount_eq
  refine ⟨c, notes, hload, ⟨_, _, hself⟩, ((hrestore _).2.1 _).mpr ?_⟩
  simp [Snapshot.refusal?, Snapshot.checks, hsuits.version, hsuits.descriptor, hsuits.kind,
    hsuits.valid, hsuits.prgPages, hsuits.chrPages, hsuits.wramPages, htables]

/-! ## What is left of the past -/

namespace Cartridge

/-- What a restore comes to, the images apart. -/
def outcome (c : Cartridge) (s : Snapshot) :
    Except Fault (Noted (Except RestoreError (Banks × Board × Memory))) :=
  (c.restore s).map fun restored =>
    { value := restored.value.map fun c' => (c'.banks, c'.board, c'.wram)
      notes := restored.notes }

/-- Only the images and the descriptor of a cartridge outlast a snapshot. -/
theorem install_congr (hwram : c.wram.size = e.wram.size) (s : Snapshot) (fresh : Board)
    (banks : Banks) :
    c.install s fresh banks = (e.install s fresh banks).map fun e' =>
      { c with banks := e'.banks, board := e'.board, wram := e'.wram } := by
  unfold install
  rw [hwram]
  split
  · rfl
  · split
    · rfl
    · split
      · rfl
      · split
        · rfl
        · rfl

theorem outcome_congr (hdescriptor : c.descriptor = e.descriptor)
    (hwram : c.wram.size = e.wram.size) (s : Snapshot) : c.outcome s = e.outcome s := by
  unfold outcome restore
  rw [hdescriptor]
  split
  · rfl
  · split
    · rfl
    · cases Registry.configure e.descriptor with
      | error fault => rfl
      | ok found =>
        obtain ⟨value, notes⟩ := found
        cases value with
        | none => rfl
        | some pair =>
          obtain ⟨fresh, banks⟩ := pair
          simp only [bind, Except.bind]
          cases banks.setMirroring s.mirroring with
          | error fault => rfl
          | ok arranged =>
            simp only [install_congr hwram s fresh arranged]
            cases e.install s fresh arranged with
            | error refusal => rfl
            | ok restored => rfl

end Cartridge

namespace Snapshot

/-- The snapshot with every page number taken modulo the number of banks. -/
def reduce (s : Snapshot) (banks : Banks) : Snapshot :=
  { s with
    prgPages := s.prgPages.map (· % banks.prg.bankCount)
    chrPages := s.chrPages.map (· % banks.chr.bankCount)
    wramPages := s.wramPages.map (· % banks.wram.bankCount)
    nametablePages := s.nametablePages.map (· % banks.nametables.bankCount) }

/-- Every page of the snapshot names a bank that exists. -/
structure InRange (s : Snapshot) (banks : Banks) : Prop where
  prg : ∀ b ∈ s.prgPages, b < banks.prg.bankCount
  chr : ∀ b ∈ s.chrPages, b < banks.chr.bankCount
  wram : ∀ b ∈ s.wramPages, b < banks.wram.bankCount
  nametables : ∀ b ∈ s.nametablePages, b < banks.nametables.bankCount

theorem InRange.reduce_eq {s : Snapshot} {banks : Banks} (h : s.InRange banks) :
    s.reduce banks = s := by
  unfold reduce
  rw [Window.map_mod_eq h.prg, Window.map_mod_eq h.chr, Window.map_mod_eq h.wram,
    Window.map_mod_eq h.nametables]

end Snapshot

/-- Two cartridges of one descriptor with as much work RAM come to the same through a snapshot,
whatever they held. A snapshot taken right after has the page numbers reduced and all else as it
was, and neither snapshot changes anything when it is restored again. -/
theorem restore_erases_history (hdescriptor : c.descriptor = e.descriptor)
    (hwram : c.wram.size = e.wram.size) (s : Snapshot) :
    c.outcome s = e.outcome s ∧
    ∀ c' notes, c.restore s = .ok { value := .ok c', notes } →
      c'.snapshot = s.reduce c'.banks ∧
      (s.InRange c'.banks → c'.snapshot = s) ∧
      c'.restore s = .ok { value := .ok c', notes } ∧
      c'.restore c'.snapshot = .ok { value := .ok c', notes } := by
  refine ⟨Cartridge.outcome_congr hdescriptor hwram s, ?_⟩
  intro c' notes hrestore
  obtain ⟨fresh, banks, hfound, hsuits, rfl⟩ := Cartridge.restore_eq_ok hrestore
  have htaken : (s.installed c banks).snapshot = s.reduce (s.installed c banks).banks := by
    simp only [Cartridge.snapshot, Snapshot.reduce, Snapshot.installed, Snapshot.currentVersion,
      hsuits.version, hsuits.descriptor]
    rfl
  refine ⟨htaken, ?_, ?_, ?_⟩
  · intro hrange
    rw [htaken, hrange.reduce_eq]
  · have hagain : s.Suits (s.installed c banks) fresh banks := { hsuits with wram := rfl }
    exact Cartridge.restore_of_suits hfound hagain
  · have hb := (Registry.configure_fitted hfound).2
    exact Cartridge.restore_snapshot hfound rfl hsuits.kind hsuits.valid
      (hsuits.banksOver_fitted hb) rfl

/-- Two cartridges with different work RAM, and a snapshot with program pages far out of range. -/
theorem restore_erases_history_smallFme7 :
    ∃ c notes, Cartridge.load .smallFme7 (.zeroed 0x8000) #[] = .ok { value := .ok c, notes } ∧
      ∃ s : Snapshot, s.prgPages = c.snapshot.prgPages.map (· + 1 <<< 63) ∧
        c.outcome s = { c with wram := .replicate 0x800 7 }.outcome s ∧
        ∃ c' notes', c.restore s = .ok { value := .ok c', notes := notes' } ∧
          c'.snapshot = s.reduce c'.banks ∧
          c'.restore c'.snapshot = .ok { value := .ok c', notes := notes' } := by
  obtain ⟨c, notes, hload, _⟩ := Descriptor.smallFme7_load
  have hcart := Cartridge.load_wellFormed hload
  have hsize : c.wram.size = (Array.replicate 0x800 (7 : UInt8)).size := by
    rw [hcart.wram_size]
    exact Array.size_replicate.symm
  obtain ⟨fresh, banks, found, hfound, hkind⟩ := hcart.chosen
  have hb := (Registry.configure_fitted hfound).2
  rw [hkind] at hb
  rw [← hcart.descriptor] at hfound
  have hown : c.snapshot.Suits c fresh banks :=
    Cartridge.snapshot_suits rfl hkind.symm hcart.board hb hcart.banks rfl
  let s := { c.snapshot with prgPages := c.snapshot.prgPages.map (· + 1 <<< 63) }
  have hsuits : s.Suits c fresh banks :=
    { hown with prgPages := (List.length_map ..).trans hown.prgPages }
  obtain ⟨hsame, hafter⟩ := restore_erases_history (c := c)
    (e := { c with wram := .replicate 0x800 7 }) rfl hsize s
  have hrestore := Cartridge.restore_of_suits hfound hsuits
  obtain ⟨htaken, _, _, hagain⟩ := hafter _ _ hrestore
  exact ⟨c, notes, hload, s, rfl, hsame, _, _, hrestore, htaken, hagain⟩

end GamePak
