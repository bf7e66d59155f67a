import GamePak.Proofs.Standing

/-!
The arrangement of the nametables. It is kept twice, by name and in the four pages of the nametable
window, and both are changed together, so that each page shows what the name says. A board brings
about only the arrangements that its registers can name. None of them is the one with four screens,
which is there only if it is soldered, and a board that can name none keeps what is soldered.
-/

namespace GamePak

variable {d : Descriptor}

theorem Mirroring.page_mod_four (m : Mirroring) (table : Nat) :
    m.page (table % 4) = m.page table := by
  cases m <;> simp only [page] <;> omega

/-- All arrangements but one make do with two physical pages. -/
theorem Mirroring.page_lt_two {m : Mirroring} (h : m ≠ .fourScreen) (table : Nat) :
    m.page table < 2 := by
  cases m with
  | fourScreen => exact absurd rfl h
  | _ =>
    simp only [page]
    omega

/-! ## Name and pages -/

theorem Select.eq_mirroring {s : Select} (h : s.slot = .nametables) : ∃ m, s = .mirroring m := by
  cases s with
  | mirroring m => exact ⟨m, rfl⟩
  | _ => cases h

namespace Banks

variable {b b' : Banks} {s : Select} {selects : List Select}

/-- The nametable window shows the pages that the arrangement names. -/
def Coherent (b : Banks) : Prop := b.Stands (.mirroring b.mirroring)

theorem apply_mirroring (h : b.apply s = .ok b') :
    b'.mirroring = b.mirroring ∨ s = .mirroring b'.mirroring := by
  obtain ⟨_, _, _, hkept | hslot⟩ := apply_frame h
  · exact .inl hkept.2
  · obtain ⟨m, rfl⟩ := Select.eq_mirroring hslot
    right
    rw [(stands_mirroring_iff.mp (apply_stands h)).2]

theorem apply_coherent (hb : b.Coherent) (h : b.apply s = .ok b') : b'.Coherent := by
  by_cases hslot : s.slot = .nametables
  · obtain ⟨m, rfl⟩ := Select.eq_mirroring hslot
    have hstands := apply_stands h
    rw [← (stands_mirroring_iff.mp hstands).2] at hstands
    exact hstands
  · obtain ⟨_, _, _, htables⟩ := apply_frame h
    unfold Coherent
    rw [(htables.resolve_right hslot).2]
    exact hb.apply_other h hslot

theorem applyAll_coherent (hb : b.Coherent) (h : b.applyAll selects = .ok b') :
    b'.Coherent := by
  induction selects generalizing b with
  | nil =>
    cases h
    exact hb
  | cons s rest ih =>
    obtain ⟨next, hnext, hrest⟩ := Fault.bind_eq_ok_iff.mp h
    exact ih (apply_coherent hb hnext) hrest

/-- An arrangement that was not there before is one that was selected. -/
theorem applyAll_mirroring (h : b.applyAll selects = .ok b') :
    b'.mirroring = b.mirroring ∨ .mirroring b'.mirroring ∈ selects := by
  induction selects generalizing b with
  | nil =>
    cases h
    exact .inl rfl
  | cons s rest ih =>
    obtain ⟨next, hnext, hrest⟩ := Fault.bind_eq_ok_iff.mp h
    rcases ih hrest with hsame | hlater
    · rw [hsame]
      rcases apply_mirroring hnext with hkept | hnew
      · exact .inl hkept
      · right
        rw [← hnew]
        exact List.mem_cons_self ..
    · exact .inr (List.mem_cons_of_mem s hlater)

theorem powerOn_mirroring {l : Layout} (h : powerOn d l = .ok b) :
    b.mirroring = d.mirroring ∧ b.Coherent := by
  simp only [powerOn, Window.forNametables, Fault.bind_eq_ok_iff] at h
  obtain ⟨prg, _, chr, _, wram, _, tables, ⟨plain, _, htables⟩, heq⟩ := h
  cases heq
  exact ⟨rfl, stands_mirroring_iff.mpr ⟨Window.arrange_again htables, rfl⟩⟩

theorem coherent_persists : Persists d fun _ banks => banks.Coherent where
  start := fun _ hplain hbanks => applyAll_coherent (powerOn_mirroring hplain).2 hbanks
  write := fun h _ hbanks => applyAll_coherent h hbanks
  afterRead := fun h hbanks => applyAll_coherent h hbanks
  clock := fun h _ => h
  scanline := fun h _ => h
  acknowledge := fun h => h

namespace Coherent

variable {l : Layout}

theorem bank (h : b.Coherent) (hb : b.Fitted d l) {table : Nat} (htable : table < 4) :
    b.nametables.bank table = .ok (b.mirroring.page table) := by
  have hselect := Window.arrange_select (stands_mirroring_iff.mp h).1 table htable
  have hcount : b.nametables.bankCount = 4 := hb.nametables.bankCount_eq
  have hbank := Window.bank_of_select hselect
  rw [hb.nametables.and_bankMask, hcount, Nat.mod_eq_of_lt (Mirroring.page_lt_four _ _)] at hbank
  exact hbank

theorem pages (h : b.Coherent) (hb : b.Fitted d l) :
    b.nametables.pages = (List.range 4).map b.mirroring.page := by
  have hlength : b.nametables.pages.length = 4 := hb.nametables.pageCount_eq
  apply List.ext_getElem
  · rw [hlength, List.length_map, List.length_range]
  · intro table htable _
    rw [hlength] at htable
    have hbank := h.bank hb htable
    unfold Window.bank at hbank
    rw [List.getElem?_eq_getElem (hlength ▸ htable)] at hbank
    rw [List.getElem_map, List.getElem_range]
    exact Except.ok.inj hbank

/-- A nametable address reaches the page that the arrangement puts behind its table. -/
theorem mapPpu (h : b.Coherent) (hb : b.Fitted d l) {addr : Nat} (haddr : 0x2000 ≤ addr) :
    b.mapPpu addr = .ok (.nametable (b.mirroring.page (addr / 1024) * 1024 + addr % 1024)) := by
  have hcut : b.nametables.IsCut 4096 0x2000 1024 4 := hb.nametables
  have hbank := h.bank hb (show addr % 0x1000 / 1024 < 4 by omega)
  have htable : (0x2000 + addr % 0x1000 - 0x2000) / 1024 = addr % 0x1000 / 1024 := by omega
  rw [← htable] at hbank
  have hresolve := hcut.resolve_eq (by omega) (Nat.le_add_right _ _) hbank
  have hmod : addr % 0x1000 / 1024 = addr / 1024 % 4 := by omega
  have hoffset : (0x2000 + addr % 0x1000) % 1024 = addr % 1024 := by omega
  rw [htable, hmod, Mirroring.page_mod_four, Nat.min_eq_left (by omega), hoffset] at hresolve
  unfold Banks.mapPpu
  rw [if_neg (by omega), hresolve]
  rfl

end Coherent

end Banks

/-! ## What registers can name -/

/-- The arrangements of boards that have two bits for it. -/
def Mirroring.twoBit : List Mirroring := [.vertical, .horizontal, .singleA, .singleB]

theorem Mirroring.ofRegister_mem (value : UInt8) : ofRegister value ∈ twoBit := by
  unfold ofRegister
  split <;> decide

theorem Mirroring.ofBit_mem (bit : Bool) : ofBit bit ∈ [Mirroring.vertical, .horizontal] := by
  cases bit <;> decide

theorem Mirroring.ofScreenBit_mem (bit : Bool) :
    ofScreenBit bit ∈ [Mirroring.singleA, .singleB] := by
  cases bit <;> decide

theorem Mmc1.controlMirroring_mem (value : UInt8) :
    controlMirroring value ∈ Mirroring.twoBit := by
  unfold controlMirroring
  split <;> decide

namespace Board

variable {b b' : Board} {m : Mirroring}

/-- The arrangements that the registers of a board can name. -/
def arrangements : Board → List Mirroring
  | discrete .axrom => [.singleA, .singleB]
  | discrete _ => []
  | mmc1 _ => Mirroring.twoBit
  | mmc2 _ => [.vertical, .horizontal]
  | mmc3 r => if r.fixedMirroring then [] else [.vertical, .horizontal]
  | fcg _ => Mirroring.twoBit
  | vrc4 _ => Mirroring.twoBit
  | fme7 _ => Mirroring.twoBit
  | codemasters r => if r.mirroringControl then [.singleA, .singleB] else []
  | vrc3 _ => []

theorem fourScreen_not_mem (b : Board) : .fourScreen ∉ b.arrangements := by
  unfold arrangements
  repeat' split
  all_goals simp [Mirroring.twoBit]

/-- What can be named is soldered. -/
theorem soldered_arrangements (b : Board) : b.soldered.arrangements = b.arrangements := by
  cases b <;> rfl

theorem arrangements_axrom (h : b.kind = .discrete .axrom) :
    b.arrangements = [.singleA, .singleB] := by
  cases b with
  | discrete chip =>
    cases h
    rfl
  | _ => cases h

theorem arrangements_of_soldered (h : b'.soldered = b.soldered) :
    b'.arrangements = b.arrangements := by
  rw [← soldered_arrangements b', h, soldered_arrangements]

theorem mirroring_not_mem_selects (b : Board) : .mirroring m ∉ b.selects := by
  cases b with
  | mmc1 r =>
    simp only [selects, Mmc1.selects, Mmc1.chrSelects, Mmc1.prgSelects]
    cases r.chrMode <;> cases r.prgMode <;> simp
  | mmc2 r => simp [selects, Mmc2.selects]
  | mmc3 r =>
    simp only [selects, Mmc3.selects, Mmc3.chrSelects, Mmc3.prgSelects]
    cases r.prgSwapped <;> simp
  | vrc4 r =>
    simp only [selects, Vrc4.selects, Vrc4.prgSelects]
    cases r.swapped <;> simp [Vrc4.chrSelect]
  | _ => exact List.not_mem_nil

end Board

/-! ## What a write selects, by chip -/

section

variable {m : Mirroring} {addr : Nat} {value : UInt8}

theorem Discrete.write_arrangement {b : Discrete}
    (h : .mirroring m ∈ (b.write addr value).selects) : m ∈ (Board.discrete b).arrangements := by
  unfold write at h
  split at h
  · cases h
  · cases b with
    | axrom =>
      simp only [latch, List.mem_cons, reduceCtorEq, Select.mirroring.injEq, List.not_mem_nil,
        or_false, false_or] at h
      rw [h]
      exact Mirroring.ofScreenBit_mem _
    | _ => simp [latch] at h

theorem Mmc1.mirroring_not_mem (r : Mmc1) : .mirroring m ∉ r.selects :=
  (Board.mmc1 r).mirroring_not_mem_selects

theorem Mmc1.commit_arrangement {r : Mmc1} (h : .mirroring m ∈ (r.commit addr value).selects) :
    m ∈ Mirroring.twoBit := by
  unfold commit at h
  simp only at h
  split at h
  · rcases List.mem_cons.mp h with heq | h
    · cases heq
      exact controlMirroring_mem value
    · exact absurd h (mirroring_not_mem _)
  · repeat' split at h
    all_goals exact absurd h (mirroring_not_mem _)

theorem Mmc1.write_arrangement {r : Mmc1} {reply : Reply Mmc1} (h : r.write addr value = .ok reply)
    (hm : .mirroring m ∈ reply.selects) : m ∈ Mirroring.twoBit := by
  unfold write at h
  split at h
  · cases h
    cases hm
  · split at h
    · cases h
      exact absurd hm (mirroring_not_mem _)
    · obtain ⟨count, _, h⟩ := Fault.bind_eq_ok_iff.mp h
      split at h
      · cases h
        cases hm
      · cases h
        exact commit_arrangement hm

theorem Mmc2.write_arrangement {r : Mmc2} (h : .mirroring m ∈ (r.write addr value).selects) :
    m ∈ [Mirroring.vertical, .horizontal] := by
  unfold write selects at h
  repeat' split at h
  all_goals simp at h
  rw [h]
  exact Mirroring.ofBit_mem _

theorem Mmc3.write_arrangement {r : Mmc3} (h : .mirroring m ∈ (r.write addr value).selects) :
    m ∈ (Board.mmc3 r).arrangements := by
  have hquiet : ∀ r : Mmc3, .mirroring m ∉ r.selects :=
    fun r => (Board.mmc3 r).mirroring_not_mem_selects
  unfold write writeEven writeOdd at h
  repeat' split at h
  all_goals first
    | cases h
      done
    | exact absurd h (hquiet _)
    | skip
  rename_i hfree
  rw [Board.arrangements, if_neg hfree]
  cases List.mem_singleton.mp h
  exact Mirroring.ofBit_mem _

theorem Fcg.write_arrangement {r : Fcg} (h : .mirroring m ∈ (r.write addr value).selects) :
    m ∈ Mirroring.twoBit := by
  unfold write at h
  repeat' split at h
  all_goals simp at h
  rw [h]
  exact Mirroring.ofRegister_mem value

theorem Vrc4.write_arrangement {r : Vrc4} (h : .mirroring m ∈ (r.write addr value).selects) :
    m ∈ Mirroring.twoBit := by
  have hquiet : ∀ r : Vrc4, .mirroring m ∉ r.prgSelects :=
    fun r hm => (Board.vrc4 r).mirroring_not_mem_selects (List.mem_append_left _ hm)
  unfold write writeChr chrSelect at h
  simp only at h
  repeat' split at h
  all_goals first
    | exact absurd h (hquiet _)
    | simp only [List.mem_singleton, List.not_mem_nil, reduceCtorEq, Select.mirroring.injEq] at h
  rw [h]
  exact Mirroring.ofRegister_mem value

theorem Fme7.write_arrangement {r : Fme7} (h : .mirroring m ∈ (r.write addr value).selects) :
    m ∈ Mirroring.twoBit := by
  unfold write parameter writeWorkArea at h
  simp only at h
  repeat' split at h
  all_goals simp at h
  rw [h]
  exact Mirroring.ofRegister_mem value

theorem Codemasters.write_arrangement {r : Codemasters}
    (h : .mirroring m ∈ (r.write addr value).selects) :
    m ∈ (Board.codemasters r).arrangements := by
  unfold write at h
  simp only at h
  repeat' split at h
  all_goals simp at h
  rename_i hcontrol
  rw [Board.arrangements, if_pos hcontrol, h]
  exact Mirroring.ofScreenBit_mem _

theorem Vrc3.write_arrangement {r : Vrc3} : .mirroring m ∉ (r.write addr value).selects := by
  unfold write
  repeat' split
  all_goals simp

end

namespace Board

variable {b : Board} {m : Mirroring}

theorem write_arrangement {addr : UInt16} {value : UInt8} {reply : Reply Board}
    (h : b.write addr value = .ok reply) (hm : .mirroring m ∈ reply.selects) :
    m ∈ b.arrangements := by
  cases b with
  | discrete b =>
    cases h
    exact Discrete.write_arrangement hm
  | mmc1 r =>
    obtain ⟨own, hown, heq⟩ := Fault.bind_eq_ok_iff.mp h
    cases heq
    exact Mmc1.write_arrangement hown hm
  | mmc2 r =>
    cases h
    exact Mmc2.write_arrangement hm
  | mmc3 r =>
    cases h
    exact Mmc3.write_arrangement hm
  | fcg r =>
    cases h
    exact Fcg.write_arrangement hm
  | vrc4 r =>
    cases h
    exact Vrc4.write_arrangement hm
  | fme7 r =>
    cases h
    exact Fme7.write_arrangement hm
  | codemasters r =>
    cases h
    exact Codemasters.write_arrangement hm
  | vrc3 r =>
    cases h
    exact absurd hm Vrc3.write_arrangement

/-- Reading a tile makes the selections of the registers or none. -/
theorem mirroring_not_mem_afterRead (b : Board) (addr : Nat) :
    .mirroring m ∉ (b.afterRead addr).selects := by
  cases b with
  | mmc2 r =>
    simp only [afterRead, Mmc2.afterRead]
    split
    · exact (mmc2 _).mirroring_not_mem_selects
    · exact List.not_mem_nil
  | _ => exact List.not_mem_nil

/-- Only AxROM selects an arrangement at power-on. -/
theorem mirroring_not_mem_start {k : BoardKind} {reply : Reply Board} (h : k.start? d = some reply)
    (hk : k ≠ .discrete .axrom) : .mirroring m ∉ reply.selects := by
  have hquiet := reply.registers.mirroring_not_mem_selects (m := m)
  cases k with
  | discrete chip =>
    obtain ⟨own, hown, rfl⟩ := Option.map_eq_some_iff.mp h
    obtain ⟨_, rfl⟩ := Discrete.start?_eq_some hown
    cases chip with
    | axrom => exact absurd rfl hk
    | _ => simp [Reply.map, Discrete.powerOn]
  | mmc1 =>
    obtain ⟨own, hown, rfl⟩ := Option.map_eq_some_iff.mp h
    obtain ⟨_, r, _, rfl⟩ := Mmc1.start?_eq_some hown
    exact hquiet
  | mmc2 =>
    obtain ⟨own, hown, rfl⟩ := Option.map_eq_some_iff.mp h
    obtain ⟨_, rfl⟩ := Mmc2.start?_eq_some hown
    simp [Reply.map]
  | mmc3 =>
    obtain ⟨own, hown, rfl⟩ := Option.map_eq_some_iff.mp h
    obtain ⟨_, r, _, rfl⟩ := Mmc3.start?_eq_some hown
    exact hquiet
  | fcg =>
    obtain ⟨own, hown, rfl⟩ := Option.map_eq_some_iff.mp h
    obtain ⟨_, rfl⟩ := Fcg.start?_eq_some hown
    simp [Reply.map]
  | vrc4 =>
    obtain ⟨own, hown, rfl⟩ := Option.map_eq_some_iff.mp h
    obtain ⟨_, mapper, _, r, _, rfl⟩ := Vrc4.start?_eq_some hown
    intro hm
    rcases List.mem_cons.mp hm with heq | hm
    · cases heq
    · exact hquiet (List.mem_append_left _ hm)
  | fme7 =>
    obtain ⟨own, hown, rfl⟩ := Option.map_eq_some_iff.mp h
    obtain ⟨_, rfl⟩ := Fme7.start?_eq_some hown
    simp [Reply.map]
  | codemasters =>
    obtain ⟨own, hown, rfl⟩ := Option.map_eq_some_iff.mp h
    obtain ⟨_, rfl⟩ := Codemasters.start?_eq_some hown
    simp [Reply.map]
  | vrc3 =>
    obtain ⟨own, hown, rfl⟩ := Option.map_eq_some_iff.mp h
    obtain ⟨_, rfl⟩ := Vrc3.start?_eq_some hown
    simp [Reply.map]

/-- The arrangement at power-on is the soldered one, but on AxROM the first that it can name. -/
theorem start_mirroring {k : BoardKind} {reply : Reply Board} {plain banks : Banks}
    (h : k.start? d = some reply) (hplain : Banks.powerOn d k.layout = .ok plain)
    (hbanks : plain.applyAll reply.selects = .ok banks) :
    banks.mirroring = if k = .discrete .axrom then .singleA else d.mirroring := by
  by_cases hk : k = .discrete .axrom
  · subst hk
    obtain ⟨own, hown, rfl⟩ := Option.map_eq_some_iff.mp h
    obtain ⟨_, rfl⟩ := Discrete.start?_eq_some hown
    have hstands := Banks.applyAll_stands (s := .mirroring .singleA) hbanks rfl
    rw [if_pos rfl]
    exact (Banks.stands_mirroring_iff.mp hstands).2
  · rw [if_neg hk, ← (Banks.powerOn_mirroring hplain).1]
    exact (Banks.applyAll_mirroring hbanks).resolve_right (mirroring_not_mem_start h hk)

/-! ## Runs -/

/-- The arrangement is one that the registers can name or, other than on AxROM, the soldered one. -/
def Arranged (d : Descriptor) (b : Board) (banks : Banks) : Prop :=
  banks.mirroring ∈ b.arrangements ∨ b.kind ≠ .discrete .axrom ∧ banks.mirroring = d.mirroring

/-- The soldered board says what can be named, so only the selections matter to the arrangement. -/
theorem Arranged.applyAll {b' : Board} {banks banks' : Banks} {selects : List Select}
    (h : b.Arranged d banks) (hsoldered : b'.soldered = b.soldered)
    (hbanks : banks.applyAll selects = .ok banks')
    (hselects : ∀ m, .mirroring m ∈ selects → m ∈ b.arrangements) : b'.Arranged d banks' := by
  have hkind : b'.kind = b.kind := by
    rw [← b'.soldered_kind, hsoldered, b.soldered_kind]
  unfold Arranged
  rw [arrangements_of_soldered hsoldered, hkind]
  rcases Banks.applyAll_mirroring hbanks with hsame | hnew
  · rw [hsame]
    exact h
  · exact .inl (hselects _ hnew)

theorem Arranged.of_soldered {b' : Board} {banks : Banks} (h : b.Arranged d banks)
    (hsoldered : b'.soldered = b.soldered) : b'.Arranged d banks :=
  h.applyAll hsoldered (show banks.applyAll [] = .ok banks from rfl) nofun

theorem arranged_persists : Persists d (Arranged d) where
  start := by
    intro k reply plain banks hstart hplain hbanks
    have hkind := (BoardKind.start_keeps hstart).kind
    have hmirroring := start_mirroring hstart hplain hbanks
    unfold Arranged
    by_cases hk : k = .discrete .axrom
    · rw [hmirroring, if_pos hk, arrangements_axrom (hkind.trans hk)]
      exact .inl (List.mem_cons_self ..)
    · rw [hmirroring, if_neg hk, hkind]
      exact .inr ⟨hk, rfl⟩
  write := fun h hwrite hbanks =>
    h.applyAll (write_soldered hwrite) hbanks fun _ hm => write_arrangement hwrite hm
  afterRead := fun h hbanks =>
    h.applyAll (afterRead_soldered _ _) hbanks fun _ hm =>
      absurd hm (mirroring_not_mem_afterRead _ _)
  clock := fun h hclock => h.of_soldered (clock_soldered hclock)
  scanline := fun h hscanline => h.of_soldered (scanline_soldered hscanline)
  acknowledge := fun h => h.of_soldered (acknowledge_soldered _)

end Board

/-- The kinds of board that cannot name an arrangement, as the descriptor has them wired. -/
def BoardKind.FixesMirroring (d : Descriptor) : BoardKind → Prop
  | discrete .axrom => False
  | discrete _ => True
  | mmc3 => d.mirroring = .fourScreen
  | codemasters => d.board ≠ "CAMERICA-BF9097" ∧ d.submapper ≠ 1
  | vrc3 => True
  | _ => False

theorem Board.Wired.arrangements_eq_nil {b : Board} (h : b.Wired d)
    (hfixes : b.kind.FixesMirroring d) : b.arrangements = [] := by
  obtain ⟨reply, hstart, hreply⟩ := h
  rw [← arrangements_of_soldered hreply]
  cases b with
  | discrete chip =>
    obtain ⟨own, hown, rfl⟩ := Option.map_eq_some_iff.mp hstart
    obtain ⟨_, rfl⟩ := Discrete.start?_eq_some hown
    cases chip with
    | axrom => exact hfixes.elim
    | _ => rfl
  | mmc3 r =>
    have hfour : d.mirroring = .fourScreen := hfixes
    obtain ⟨own, hown, rfl⟩ := Option.map_eq_some_iff.mp hstart
    obtain ⟨_, start, rfl, rfl⟩ := Mmc3.start?_eq_some hown
    simp [Reply.map, arrangements, hfour]
  | codemasters r =>
    obtain ⟨hboard, hsubmapper⟩ : d.board ≠ "CAMERICA-BF9097" ∧ d.submapper ≠ 1 := hfixes
    obtain ⟨own, hown, rfl⟩ := Option.map_eq_some_iff.mp hstart
    obtain ⟨_, rfl⟩ := Codemasters.start?_eq_some hown
    simp [Reply.map, arrangements, hboard, hsubmapper]
  | vrc3 r =>
    obtain ⟨own, hown, rfl⟩ := Option.map_eq_some_iff.mp hstart
    rfl
  | mmc1 r => exact hfixes.elim
  | mmc2 r => exact hfixes.elim
  | fcg r => exact hfixes.elim
  | vrc4 r => exact hfixes.elim
  | fme7 r => exact hfixes.elim

namespace Cartridge.Reachable

variable {c : Cartridge}

theorem coherent (hc : c.Reachable d) : c.banks.Coherent := Banks.coherent_persists.reachable hc

theorem arranged (hc : c.Reachable d) : c.board.Arranged d c.banks :=
  Board.arranged_persists.reachable hc

theorem mirroring_of_fixes (hc : c.Reachable d) (hfixes : c.board.kind.FixesMirroring d) :
    c.mirroring = d.mirroring := by
  rcases hc.arranged with hmem | ⟨_, hsame⟩
  · rw [hc.wired.arrangements_eq_nil hfixes] at hmem
    cases hmem
  · exact hsame

end Cartridge.Reachable

/-- Every reachable cartridge shows its nametables as its arrangement says. Four screens there are
only if they are soldered, and any other arrangement stays in the first two physical pages. What is
soldered stays on boards that cannot name an arrangement, and AxROM always has a single screen. -/
theorem nametables_follow_mirroring {c : Cartridge} (hc : c.Reachable d) :
    c.banks.nametables.pages = (List.range 4).map c.mirroring.page ∧
    (c.mirroring = .fourScreen → d.mirroring = .fourScreen) ∧
    (c.mirroring ≠ .fourScreen → ∀ addr : UInt16, 0x2000 ≤ Cartridge.videoAddress addr →
      ∃ offset < 2048, c.banks.mapPpu (Cartridge.videoAddress addr) = .ok (.nametable offset)) ∧
    (c.board.kind.FixesMirroring d → c.mirroring = d.mirroring) ∧
    (c.board.kind = .discrete .axrom → c.mirroring = .singleA ∨ c.mirroring = .singleB) := by
  have hbanks := hc.wellFormed.banks
  have harranged := hc.arranged
  refine ⟨hc.coherent.pages hbanks, ?_, ?_, hc.mirroring_of_fixes, ?_⟩
  · intro hfour
    rcases harranged with hmem | ⟨_, hsame⟩
    · have hfour : c.banks.mirroring = .fourScreen := hfour
      rw [hfour] at hmem
      exact absurd hmem c.board.fourScreen_not_mem
    · exact hsame.symm.trans hfour
  · intro htwo addr haddr
    have hpage := Mirroring.page_lt_two htwo (Cartridge.videoAddress addr / 1024)
    refine ⟨_, ?_, hc.coherent.mapPpu hbanks haddr⟩
    unfold Cartridge.mirroring at hpage
    omega
  · intro hkind
    rcases harranged with hmem | ⟨hother, _⟩
    · rw [Board.arrangements_axrom hkind] at hmem
      simp only [List.mem_cons, List.not_mem_nil, or_false] at hmem
      exact hmem
    · exact absurd hkind hother

/-- AxROM on a board that has four screens soldered. -/
def Descriptor.aorom : Descriptor :=
  { Descriptor.named "NES-AOROM" 0x8000 0 with mirroring := .fourScreen }

theorem Descriptor.aorom_load :
    ∃ c notes, Cartridge.load .aorom (.zeroed 0x8000) #[] = .ok { value := .ok c, notes } ∧
      c.board = .discrete .axrom :=
  Cartridge.load_of_configure (by decide) Array.size_replicate rfl (by decide) ⟨_, _, rfl⟩

/-- The second screen has been chosen, and the last address of video memory is one of its. -/
theorem nametables_follow_mirroring_aorom :
    ∃ c notes, Cartridge.load .aorom (.zeroed 0x8000) #[] = .ok { value := .ok c, notes } ∧
      ∃ c', c.writeAll [(0x8000, 0x10)] = .ok c' ∧
        c'.banks.nametables.pages = (List.range 4).map c'.mirroring.page ∧
        (c'.mirroring = .singleA ∨ c'.mirroring = .singleB) ∧
        ∃ offset < 2048, c'.banks.mapPpu 0x3FFF = .ok (.nametable offset) := by
  obtain ⟨c, notes, hload, hboard⟩ := Descriptor.aorom_load
  obtain ⟨c', hwritten, hreachable, hafter, _⟩ := Cartridge.Reachable.exists_writeAll (.load hload)
    [(0x8000, 0x10)]
  rw [hboard] at hafter
  have hkind : c'.board.kind = .discrete .axrom := congrArg Board.kind (Except.ok.inj hafter).symm
  obtain ⟨hpages, _, hlow, _, hscreens⟩ := nametables_follow_mirroring hreachable
  have htwo : c'.mirroring ≠ .fourScreen := by
    rcases hscreens hkind with hfirst | hsecond
    · simp [hfirst]
    · simp [hsecond]
  exact ⟨c, notes, hload, c', hwritten, hpages, hscreens hkind, hlow htwo 0x3FFF (by decide)⟩

end GamePak
