import Mathlib.Algebra.Group.Nat.Defs
import GamePak.Proofs.Candidates
import GamePak.Proofs.Coverage
import GamePak.Proofs.Interleaving
import GamePak.Proofs.Interrupts

/-!
The VRC2, the older of the two Konami chips. It has no timer, and no register to swap its program
pages. A cartridge with the mapper number of a VRC2 is one in every run: its interrupt line stays
down and the second last bank of program memory stays where it is. The part name of the chip is
taken for a wiring that both chips are found with, and gives a cartridge that can do all that the
VRC4 can.
-/

namespace GamePak

variable {d : Descriptor}

/-! ## What the registers may hold -/

namespace Vrc4

variable {r : Vrc4}

/-- Without a timer the program pages are not swapped, and a timer drives the line. -/
def Settled (r : Vrc4) : Prop :=
  (r.timer = none → r.swapped = false) ∧ ∀ t ∈ r.timer, t.output = true

theorem writeTimer_output (t : Timer) (register : Nat) (value : UInt8) :
    (writeTimer t register value).output = t.output := by
  unfold writeTimer Timer.writeControl
  simp only
  repeat' split
  all_goals rfl

theorem write_settled (h : r.Settled) (addr : Nat) (value : UInt8) :
    (r.write addr value).registers.Settled := by
  obtain ⟨hbare, houtput⟩ := h
  have htimer : { r with timer := r.timer.map (writeTimer · (r.register addr) value) }.Settled := by
    refine ⟨fun hnone => hbare (Option.map_eq_none_iff.mp hnone), ?_⟩
    intro t ht
    obtain ⟨old, hold, rfl⟩ := Option.map_eq_some_iff.mp ht
    rw [writeTimer_output]
    exact houtput old hold
  have hswap : r.timer.isSome → ∀ swapped, { r with swapped }.Settled := by
    intro hsome swapped
    refine ⟨fun hnone => ?_, houtput⟩
    rw [show r.timer = none from hnone] at hsome
    cases hsome
  unfold write writeChr
  simp only
  repeat' split
  all_goals first
    | exact ⟨hbare, houtput⟩
    | exact htimer
    | (rename_i hregister; exact hswap hregister.2 _)

end Vrc4

namespace Board

/-- The registers of the board agree with what is on it, where it is a VRC2 or a VRC4. -/
def Settled : Board → Prop
  | vrc4 r => r.Settled
  | _ => True

theorem still_settled (b : Board) : b.still.Settled ↔ b.Settled := by
  cases b with
  | vrc4 r =>
    simp only [still, mapTimer, Settled, Vrc4.Settled]
    cases r.timer <;> simp [Timer.still]
  | _ => exact Iff.rfl

theorem Settled.pulse {b b' : Board} {p : Pulse} (h : b.Settled) (hpulse : b.pulse p = .ok b') :
    b'.Settled := by
  rw [← still_settled, pulse_still hpulse, still_settled]
  exact h

end Board

theorem settled_persists : Persists d fun board _ => board.Settled where
  start := by
    intro k reply plain banks hstart _ _
    cases k with
    | vrc4 =>
      obtain ⟨own, hown, rfl⟩ := Option.map_eq_some_iff.mp hstart
      obtain ⟨_, mapper, _, r, rfl, rfl⟩ := Vrc4.start?_eq_some hown
      refine ⟨fun _ => rfl, ?_⟩
      intro t ht
      simp only [Option.mem_def] at ht
      split at ht
      · cases ht
      · cases ht
        rfl
    | _ =>
      obtain ⟨own, _, rfl⟩ := Option.map_eq_some_iff.mp hstart
      trivial
  write := by
    intro board banks banks' addr value reply h hreply _
    cases board with
    | vrc4 r =>
      cases hreply
      exact r.write_settled h addr.toNat value
    | mmc1 r =>
      obtain ⟨own, _, heq⟩ := Fault.bind_eq_ok_iff.mp hreply
      cases heq
      trivial
    | _ =>
      cases hreply
      trivial
  afterRead := by
    intro board banks banks' addr h _
    cases board <;> exact h
  clock := fun h hclock => h.pulse (p := .clock) hclock
  scanline := fun h hscanline => h.pulse (p := .scanline) hscanline
  acknowledge := fun h => h.pulse (p := .acknowledge) rfl

theorem Cartridge.Reachable.settled {c : Cartridge} (hc : c.Reachable d) : c.board.Settled :=
  settled_persists.reachable hc

/-! ## Which cartridges have the chip -/

/-- What the descriptor says of the chip: how it is wired, and that it has an eight-bit timer unless
this is the wiring of mapper 22. -/
theorem Board.Wired.vrc4 {r : Vrc4} (h : (Board.vrc4 r).Wired d) :
    Vrc4.wiring? d = some r.mapper ∧
      if r.mapper = 22 then r.timer = none else ∃ t, r.timer = some t ∧ t.counter = .up8 := by
  obtain ⟨reply, hstart, hreply⟩ := h
  obtain ⟨own, hown, rfl⟩ := Option.map_eq_some_iff.mp hstart
  obtain ⟨_, mapper, hmapper, start, hregisters, rfl⟩ := Vrc4.start?_eq_some hown
  have hsame : start.soldered = r.soldered := vrc4.inj hreply
  rw [hregisters] at hsame
  obtain rfl : mapper = r.mapper := congrArg Vrc4.mapper hsame
  have htimer : _ = r.timer.map Timer.soldered := congrArg Vrc4.timer hsame
  refine ⟨hmapper, ?_⟩
  split
  · rename_i hwiring
    simp only [Vrc4.soldered, hwiring, if_true, Option.map_none] at htimer
    exact Option.map_eq_none_iff.mp htimer.symm
  · rename_i hwiring
    simp only [Vrc4.soldered, hwiring, if_false, Option.map_some] at htimer
    obtain ⟨t, ht, hsoldered⟩ := Option.map_eq_some_iff.mp htimer.symm
    exact ⟨t, ht, congrArg Timer.counter hsoldered⟩

theorem Vrc4.wiring?_of_name (h : d.board ∈ boards) : wiring? d = some 23 :=
  if_pos (List.contains_iff_mem.mpr h)

namespace Cartridge.Reachable

variable {c : Cartridge}

/-- A cartridge whose descriptor has a wiring of the chip has the chip, wired so. -/
theorem exists_vrc4 (hc : c.Reachable d) {mapper : UInt16} (h : Vrc4.wiring? d = some mapper) :
    ∃ r, c.board = .vrc4 r ∧ r.mapper = mapper ∧ r.Settled ∧
      if mapper = 22 then r.timer = none else ∃ t, r.timer = some t ∧ t.counter = .up8 := by
  have hkind : c.board.kind = .vrc4 :=
    hc.wellFormed.chosen.goesBy.unique (Vrc4.goesBy_of_wiring h)
  obtain ⟨r, hboard⟩ : ∃ r, c.board = .vrc4 r := Board.exists_of_kind hkind
  have hwired := hc.wired
  have hsettled := hc.settled
  rw [hboard] at hwired hsettled
  obtain ⟨hwiring, htimer⟩ := hwired.vrc4
  obtain rfl : mapper = r.mapper := Option.some.inj (h.symm.trans hwiring)
  exact ⟨r, hboard, rfl, hsettled, htimer⟩

/-! ## The page at C000 -/

/-- The page at C000 shows a bank of 8 KiB byte by byte. -/
theorem readsRom_third (hc : c.Reachable d) (hkind : c.board.kind = .vrc4) {bank : Nat}
    (hbank : c.banks.prg.bank 2 = .ok bank) {addr : UInt16} (hlow : 0xC000 ≤ addr.toNat)
    (hhigh : addr.toNat < 0xE000) : c.ReadsRom addr (bank * 0x2000 + (addr.toNat - 0xC000)) := by
  have hcart := hc.wellFormed
  have hfitted := hcart.banks
  have hholds := hc.wired.holds
  rw [hkind] at hfitted hholds
  have hcut : c.banks.prg.IsCut d.prgSize 0x8000 0x2000 4 := hfitted.prg
  have hsize : 0x8000 ≤ d.prgSize := hholds.1
  obtain ⟨offset, hoffset⟩ := Nat.exists_eq_add_of_le hlow
  have hresolve : c.banks.prg.resolve (0xC000 + offset) = _ :=
    hcut.resolve_page (by omega) (by decide) hbank (by omega)
  rw [Nat.min_eq_left (by omega), Nat.mod_eq_of_lt (show offset < 0x2000 by omega)] at hresolve
  refine hcart.readsRom (by omega) ?_
  rw [hoffset, hresolve, Nat.add_sub_cancel_left]

/-- Where the first bank is selected there, it is read. -/
theorem readsRom_first (hc : c.Reachable d) (hkind : c.board.kind = .vrc4)
    (hselect : .prg 2 0 ∈ c.board.standing) {addr : UInt16} (hlow : 0xC000 ≤ addr.toNat)
    (hhigh : addr.toNat < 0xE000) : c.ReadsRom addr (addr.toNat - 0xC000) := by
  have hbank := (hc.stands _ hselect).bank_prg hc.wellFormed.banks
  rw [Nat.zero_mod] at hbank
  have hreads := hc.readsRom_third hkind hbank hlow hhigh
  rw [Nat.zero_mul, Nat.zero_add] at hreads
  exact hreads

/-- Where the second last bank is selected there, it is read. -/
theorem readsRom_secondLast (hc : c.Reachable d) (hkind : c.board.kind = .vrc4)
    (hselect : .prgFromEnd 2 1 ∈ c.board.standing) {addr : UInt16} (hlow : 0xC000 ≤ addr.toNat)
    (hhigh : addr.toNat < 0xE000) :
    c.ReadsRom addr (d.prgSize - 0x4000 + (addr.toNat - 0xC000)) := by
  have hfitted := hc.wellFormed.banks
  have hholds := hc.wired.holds
  have hbank := (hc.stands _ hselect).bank_prgFromEnd hfitted
  rw [hkind] at hfitted hholds
  have hcut : c.banks.prg.IsCut d.prgSize 0x8000 0x2000 4 := hfitted.prg
  have hsize : 0x8000 ≤ d.prgSize := hholds.1
  have hcount : c.banks.prg.lastBank + 1 = max (d.prgSize / 0x2000) 1 := hcut.bankCount_eq
  obtain ⟨banks, hbanks⟩ : 0x2000 ∣ d.prgSize :=
    IsPowerOfTwo.dvd_of_le (by decide) (hcut.size_zero_or.resolve_left (by omega)) (by omega)
  have hreads := hc.readsRom_third hkind hbank hlow hhigh
  have hplace : (c.banks.prg.lastBank - 1) * 0x2000 = d.prgSize - 0x4000 := by omega
  rw [hplace] at hreads
  exact hreads

/-- A cycle leads from a reachable cartridge to a reachable one. -/
theorem clock {last : Cartridge} (hc : c.Reachable d) (h : c.clock = .ok last) :
    last.Reachable d := by
  have hstep : Machine.step { cartridge := c, video := .cleared d } .clock =
      .ok ({ cartridge := last, video := .cleared d }, .done) :=
    Fault.bind_eq_ok_iff.mpr ⟨_, h, rfl⟩
  exact .step hc hstep

end Cartridge.Reachable

/-! ## What the part name leads to -/

theorem Word.toNat_setNibble (word : UInt16) (byte : UInt8) {n : Nat} (hn : n < 4) :
    (setNibble word n byte).toNat =
      (word.toNat / 16 ^ n / 16 * 16 + byte.toNat % 16) * 16 ^ n + word.toNat % 16 ^ n := by
  have hword : word.toNat < 65536 := word.toNat_lt
  have hunits : UInt16.ofNat (1 <<< (4 * 0)) = 1 ∧ UInt16.ofNat (1 <<< (4 * 1)) = 16 ∧
      UInt16.ofNat (1 <<< (4 * 2)) = 256 ∧ UInt16.ofNat (1 <<< (4 * 3)) = 4096 := by decide
  obtain ⟨h₀, h₁, h₂, h₃⟩ := hunits
  obtain rfl | rfl | rfl | rfl : n = 0 ∨ n = 1 ∨ n = 2 ∨ n = 3 := by omega
  all_goals
    simp only [setNibble, h₀, h₁, h₂, h₃, UInt16.toNat_add, UInt16.toNat_mul, UInt16.toNat_div,
      UInt16.toNat_mod, UInt8.toNat_toUInt16, UInt16.reduceToNat, Nat.reducePow]
    omega

namespace Vrc4

/-- Writes that swap the program pages, with the first bank in the page at C000, fill the timer's
latch and turn the timer on. -/
def provocation : List (UInt16 × UInt8) :=
  [(0x9002, 2), (0x8000, 0), (0xF000, 0xF), (0xF001, 0xF), (0xF002, 6)]

/-- The timer after them. -/
def provoked (t : Timer) : Timer :=
  writeTimer (writeTimer (writeTimer t 0 0xF) 1 0xF) 2 6

theorem writeAll_provocation {r : Vrc4} {t : Timer} (hmapper : r.mapper = 23)
    (htimer : r.timer = some t) :
    (Board.vrc4 r).writeAll provocation =
      .ok (.vrc4 { r with prgSelect := 0, swapped := true, timer := some (provoked t) }) := by
  obtain ⟨mapper, prgSelect, chrSelects, swapped, latch, timer⟩ := r
  cases hmapper
  cases htimer
  rfl

/-- Both nibbles of the latch are then set. -/
theorem provoked_count (t : Timer) : (provoked t).count = 255 := by
  have hbyte : ∀ word : UInt16, (word % 256).toNat = word.toNat % 256 := by
    intro word
    simp only [UInt16.toNat_mod, UInt16.reduceToNat]
  have hlow := Word.toNat_setNibble (t.latch % 256) 0xF (show 0 < 4 by omega)
  have hhigh := Word.toNat_setNibble (Word.setNibble (t.latch % 256) 0 0xF % 256) 0xF
    (show 1 < 4 by omega)
  have hnibble : (0xF : UInt8).toNat = 15 := rfl
  simp only [hbyte, hlow, hnibble, Nat.reducePow] at hhigh
  apply UInt16.toNat_inj.mp
  refine hhigh.trans ?_
  change _ = 255
  omega

/-- An eight-bit timer rolls over on the next cycle. -/
theorem provoked_due {t : Timer} (h : t.counter = .up8) : (provoked t).Due := by
  have hcounter : (provoked t).counter = .up8 := h
  refine ⟨rfl, .inl rfl, ?_⟩
  rw [hcounter, provoked_count]
  rfl

end Vrc4

/-- From every reachable cartridge with the wiring of mapper 23, five writes and a cycle raise the
interrupt line and put the first bank of program memory in the place of the second last. -/
theorem Cartridge.Reachable.exists_provoked {c : Cartridge} (hc : c.Reachable d)
    (h : Vrc4.wiring? d = some 23) :
    ∃ c' last, c.writeAll Vrc4.provocation = .ok c' ∧ c'.clock = .ok last ∧
      last.irqPending = true ∧ ∀ addr : UInt16, 0xC000 ≤ addr.toNat → addr.toNat < 0xE000 →
        last.ReadsRom addr (addr.toNat - 0xC000) := by
  obtain ⟨r, hboard, hmapper, hsettled, htimer⟩ := hc.exists_vrc4 h
  rw [if_neg (by decide)] at htimer
  obtain ⟨t, ht, hcounter⟩ := htimer
  obtain ⟨c', hwritten, hreachable, hafter, _⟩ := hc.exists_writeAll Vrc4.provocation
  rw [hboard, Vrc4.writeAll_provocation hmapper ht] at hafter
  have hafter := (Except.ok.inj hafter).symm
  obtain ⟨last, hclock, _⟩ := hreachable.wellFormed.exists_clock
  obtain ⟨board, hticked, heq⟩ := Fault.bind_eq_ok_iff.mp hclock
  cases heq
  refine ⟨c', _, hwritten, hclock, ?_, ?_⟩
  · have hfires : c'.board.Fires (.event .clock) := by
      rw [hafter]
      refine ⟨by simp [Board.kind], Vrc4.provoked t, rfl, Vrc4.provoked_due hcounter, ?_⟩
      exact hsettled.2 t ht
    exact (Board.clock_pending hticked).mpr (.inl hfires)
  · intro addr hlow hhigh
    have hselect : .prg 2 0 ∈ board.standing := by
      rw [Board.clock_standing hticked, hafter]
      exact List.mem_append_left _ (List.mem_append_left _ (List.mem_cons_self ..))
    have hkind : board.kind = .vrc4 := by
      rw [Board.pulse_kind (p := .clock) hticked, hafter]
      rfl
    exact (hreachable.clock hclock).readsRom_first hkind hselect hlow hhigh

/-- A VRC2 known by its mapper number never raises the interrupt line and always shows the second
last bank of program memory from C000 to DFFF. One known by the part name of the chip has the timer
and the swap mode all the same: from every state of it a few writes and a cycle raise the line and
show the first bank there. -/
theorem vrc2_known_by_number {c : Cartridge} (hc : c.Reachable d) :
    (d.mapper? = some 22 → c.irqPending = false ∧
      ∀ addr : UInt16, 0xC000 ≤ addr.toNat → addr.toNat < 0xE000 →
        c.ReadsRom addr (d.prgSize - 0x4000 + (addr.toNat - 0xC000))) ∧
    (d.board = "KONAMI-VRC-2" →
      ∃ writes c' last, c.writeAll writes = .ok c' ∧ c'.clock = .ok last ∧
        last.irqPending = true ∧ ∀ addr : UInt16, 0xC000 ≤ addr.toNat → addr.toNat < 0xE000 →
          last.ReadsRom addr (addr.toNat - 0xC000)) := by
  constructor
  · intro hnumber
    obtain ⟨r, hboard, hmapper, hsettled, htimer⟩ :=
      hc.exists_vrc4 (Vrc4.wiring?_of_mapper hnumber (by decide))
    rw [if_pos rfl] at htimer
    constructor
    · exact hc.wired.not_pending (by rw [hboard]; exact hmapper)
    · intro addr hlow hhigh
      have hselect : .prgFromEnd 2 1 ∈ c.board.standing := by
        rw [hboard]
        refine List.mem_append_left _ (List.mem_append_left _ ?_)
        simp [Vrc4.prgSelects, hsettled.1 htimer]
      exact hc.readsRom_secondLast (congrArg Board.kind hboard) hselect hlow hhigh
  · intro hname
    have hwiring : Vrc4.wiring? d = some 23 := by
      apply Vrc4.wiring?_of_name
      rw [hname]
      decide
    obtain ⟨c', last, hwritten, hclock, hline, hreads⟩ := hc.exists_provoked hwiring
    exact ⟨_, c', last, hwritten, hclock, hline, hreads⟩

namespace Descriptor

/-- A VRC2 by its number. -/
def numberedVrc2 : Descriptor := .named "MAPPER022" 0x20000 0x2000

/-- A VRC2 by its name. -/
def namedVrc2 : Descriptor := .named "KONAMI-VRC-2" 0x20000 0x2000

theorem numberedVrc2_load :
    ∃ c notes, Cartridge.load .numberedVrc2 (.zeroed 0x20000) (.zeroed 0x2000) =
        .ok { value := .ok c, notes } ∧
      c.board = .vrc4 { mapper := 22, latch := some false, timer := none } :=
  Cartridge.load_of_configure (by decide) Array.size_replicate Array.size_replicate (by decide)
    ⟨_, _, rfl⟩

theorem namedVrc2_load :
    ∃ c notes, Cartridge.load .namedVrc2 (.zeroed 0x20000) (.zeroed 0x2000) =
        .ok { value := .ok c, notes } ∧
      c.board = .vrc4 {
        mapper := 23
        latch := some false
        timer := some { counter := .up8, ack := .registerWrite } } :=
  Cartridge.load_of_configure (by decide) Array.size_replicate Array.size_replicate (by decide)
    ⟨_, _, rfl⟩

end Descriptor

/-- What provokes the one leaves the other as it was. -/
theorem vrc2_known_by_number_both :
    (∃ c notes, Cartridge.load .numberedVrc2 (.zeroed 0x20000) (.zeroed 0x2000) =
        .ok { value := .ok c, notes } ∧ Descriptor.numberedVrc2.mapper? = some 22 ∧
      ∃ c', c.writeAll Vrc4.provocation = .ok c' ∧ c'.irqPending = false ∧
        c'.ReadsRom 0xC123 0x1C123) ∧
    ∃ c notes, Cartridge.load .namedVrc2 (.zeroed 0x20000) (.zeroed 0x2000) =
        .ok { value := .ok c, notes } ∧
      ∃ writes c' last, c.writeAll writes = .ok c' ∧ c'.clock = .ok last ∧
        last.irqPending = true ∧ last.ReadsRom 0xC123 0x123 := by
  constructor
  · obtain ⟨c, notes, hload, _⟩ := Descriptor.numberedVrc2_load
    have hnumber : Descriptor.numberedVrc2.mapper? = some 22 := by decide
    obtain ⟨c', hwritten, hreachable, _⟩ :=
      Cartridge.Reachable.exists_writeAll (.load hload) Vrc4.provocation
    obtain ⟨hline, hreads⟩ := (vrc2_known_by_number hreachable).1 hnumber
    exact ⟨c, notes, hload, hnumber, c', hwritten, hline, hreads 0xC123 (by decide) (by decide)⟩
  · obtain ⟨c, notes, hload, _⟩ := Descriptor.namedVrc2_load
    obtain ⟨writes, c', last, hwritten, hclock, hline, hreads⟩ :=
      (vrc2_known_by_number (.load hload)).2 rfl
    exact ⟨c, notes, hload, writes, c', last, hwritten, hclock, hline,
      hreads 0xC123 (by decide) (by decide)⟩

/-- By its name the chip raises the line, and the second last bank is not where it ought to be. -/
theorem line_raised_namedVrc2 :
    ∃ c notes, Cartridge.load .namedVrc2 (.zeroed 0x20000) (.zeroed 0x2000) =
        .ok { value := .ok c, notes } ∧
      ∃ c' last, c.writeAll Vrc4.provocation = .ok c' ∧ c'.clock = .ok last ∧
        last.irqPending = true ∧ ¬ last.ReadsRom 0xC000 0x1C000 := by
  obtain ⟨c, notes, hload, _⟩ := Descriptor.namedVrc2_load
  obtain ⟨c', last, hwritten, hclock, hline, hreads⟩ :=
    Cartridge.Reachable.exists_provoked (.load hload) (Vrc4.wiring?_of_name (by decide))
  refine ⟨c, notes, hload, c', last, hwritten, hclock, hline, ?_⟩
  intro hsecond
  have hfirst := hreads 0xC000 (by decide) (by decide)
  have hsame := hfirst.1.symm.trans hsecond.1
  cases hsame

end GamePak
