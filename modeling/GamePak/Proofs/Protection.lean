import GamePak.Proofs.Interrupts
import GamePak.Proofs.WorkRam

/-!
Protected work RAM. Three of the chips can keep work RAM from being written, each by switches in one
of its registers, and what lies in the area depends on those switches and on nothing else that
changes. So work RAM that is protected stays as it is through everything that does not reach that
register: bank switching, half of a serial write, interrupts.
-/

namespace GamePak

variable {d : Descriptor}

/-! ## The switches of each chip -/

namespace Mmc1

variable {r : Mmc1} {addr : Nat} {value : UInt8}

/-- The write brings the fifth bit, and it goes to the register that has the switch. -/
def Rewrites (r : Mmc1) (addr : Nat) (value : UInt8) : Prop :=
  0xE000 ≤ addr ∧ value.toNat.testBit 7 = false ∧ r.shiftCount = 4

theorem commit_workArea (r : Mmc1) (haddr : addr < 0xE000) (value : UInt8) :
    (r.commit addr value).registers.workArea = r.workArea := by
  unfold commit
  simp only [haddr, if_true]
  repeat' split
  all_goals rfl

theorem write_workArea {reply : Reply Mmc1} (hvalid : r.Valid) (h : r.write addr value = .ok reply)
    (hkeeps : ¬ r.Rewrites addr value) : reply.registers.workArea = r.workArea := by
  unfold write at h
  split at h
  · cases h
    rfl
  · split at h
    · cases h
      rfl
    · rename_i hbit
      have hsmall : r.shiftCount.toNat < 5 := hvalid
      rw [nextByte_of_lt hvalid] at h
      simp only [bind, Except.bind] at h
      split at h
      · cases h
        rfl
      · rename_i hfull
        have hcount : r.shiftCount.toNat = 4 := by
          simp only [UInt8.lt_iff_toNat_lt, UInt8.toNat_add, UInt8.reduceToNat] at hfull
          omega
        have haddr : addr < 0xE000 := Nat.lt_of_not_le fun hhigh =>
          hkeeps ⟨hhigh, Bool.eq_false_iff.mpr hbit, UInt8.toNat_inj.mp hcount⟩
        cases h
        exact r.commit_workArea haddr _

end Mmc1

namespace Mmc3

variable {r : Mmc3} {addr : Nat} {value : UInt8}

def Rewrites (addr : Nat) : Prop := 0xA000 ≤ addr ∧ addr < 0xC000 ∧ addr % 2 = 1

theorem write_workArea (hkeeps : ¬ Rewrites addr) :
    (r.write addr value).registers.workArea = r.workArea := by
  unfold Rewrites at hkeeps
  unfold write writeEven writeOdd
  repeat' split
  all_goals first
    | rfl
    | omega

theorem scanline_workArea {r' : Mmc3} (h : r.scanline = .ok r') : r'.workArea = r.workArea := by
  rw [scanline_eq] at h
  cases h
  unfold counted
  repeat' split
  all_goals rfl

end Mmc3

theorem Vrc4.soldered_workArea (r : Vrc4) : r.soldered.workArea = r.workArea := by
  simp only [workArea, soldered, Option.isSome_map]

namespace Fme7

variable {r : Fme7} {addr : Nat} {value : UInt8}

def Rewrites (r : Fme7) (addr : Nat) : Prop :=
  0xA000 ≤ addr ∧ addr < 0xC000 ∧ r.command.toNat % 16 = 8

theorem write_workArea (hkeeps : ¬ r.Rewrites addr) :
    (r.write addr value).registers.workArea = r.workArea := by
  unfold Rewrites at hkeeps
  unfold write parameter
  repeat' split
  all_goals first
    | rfl
    | omega

end Fme7

/-! ## Every board -/

namespace Board

variable {b b' : Board}

/-- Work RAM cannot be written: the switch is off, or it has been left out of the area. -/
def Protects : Board → Prop
  | mmc1 r => r.wramEnabled = false
  | mmc3 r => r.wramWritable = false ∨ r.wramReadable = false
  | fme7 r => r.wramBanked = false ∨ r.wramEnabled = false
  | _ => False

/-- Nor can it be read, and nothing takes its place. -/
def Hides : Board → Prop
  | mmc1 r => r.wramEnabled = false
  | mmc3 r => r.wramReadable = false
  | fme7 r => r.wramBanked = true ∧ r.wramEnabled = false
  | _ => False

/-- The command reaches the register that has the switches. -/
def RewritesProtection (b : Board) : Command → Prop
  | .event (.write addr value) =>
    match b with
    | mmc1 r => r.Rewrites addr.toNat value
    | mmc3 _ => Mmc3.Rewrites addr.toNat
    | fme7 r => r.Rewrites addr.toNat
    | _ => False
  | _ => False

/-- The registers that have the switches all lie in the upper part of program memory. -/
theorem not_rewritesProtection_of_lt (b : Board) {addr : UInt16} (h : addr.toNat < 0xA000)
    (value : UInt8) : ¬ b.RewritesProtection (.event (.write addr value)) := by
  cases b with
  | mmc1 r =>
    rintro ⟨haddr, _⟩
    omega
  | mmc3 r =>
    rintro ⟨haddr, _⟩
    omega
  | fme7 r =>
    rintro ⟨haddr, _⟩
    omega
  | _ => exact not_false

theorem Protects.workArea_ne (h : b.Protects) : b.workArea ≠ .ram := by
  cases b with
  | mmc1 r =>
    have hoff : r.wramEnabled = false := h
    simp [workArea, Mmc1.workArea, hoff]
  | mmc3 r =>
    have hoff : r.wramWritable = false ∨ r.wramReadable = false := h
    rcases hoff with hoff | hoff
    · simp only [workArea, Mmc3.workArea, hoff]
      split <;> simp
    · simp [workArea, Mmc3.workArea, hoff]
  | fme7 r =>
    have hoff : r.wramBanked = false ∨ r.wramEnabled = false := h
    rcases hoff with hoff | hoff
    · simp [workArea, Fme7.workArea, hoff]
    · simp only [workArea, Fme7.workArea, hoff]
      split <;> simp
  | _ => exact h.elim

theorem Hides.workArea_eq (h : b.Hides) : b.workArea = .closed := by
  cases b with
  | mmc1 r =>
    have hoff : r.wramEnabled = false := h
    simp [workArea, Mmc1.workArea, hoff]
  | mmc3 r =>
    have hoff : r.wramReadable = false := h
    simp [workArea, Mmc3.workArea, hoff]
  | fme7 r =>
    obtain ⟨hbanked, hoff⟩ : r.wramBanked = true ∧ r.wramEnabled = false := h
    simp [workArea, Fme7.workArea, hbanked, hoff]
  | _ => exact h.elim

theorem write_workArea (hvalid : b.Valid) {addr : UInt16} {value : UInt8} {reply : Reply Board}
    (h : b.write addr value = .ok reply)
    (hkeeps : ¬ b.RewritesProtection (.event (.write addr value))) :
    reply.registers.workArea = b.workArea := by
  cases b with
  | mmc1 r =>
    obtain ⟨own, hown, heq⟩ := Fault.bind_eq_ok_iff.mp h
    cases heq
    exact Mmc1.write_workArea hvalid hown hkeeps
  | mmc3 r =>
    cases h
    exact Mmc3.write_workArea hkeeps
  | vrc4 r =>
    cases h
    have hsame := congrArg Vrc4.workArea (r.write_soldered addr.toNat value)
    rw [Vrc4.soldered_workArea, Vrc4.soldered_workArea] at hsame
    exact hsame
  | fme7 r =>
    cases h
    exact Fme7.write_workArea hkeeps
  | _ =>
    cases h
    rfl

theorem mapTimer_workArea (b : Board) (f : Timer → Timer) :
    (b.mapTimer f).workArea = b.workArea := by
  cases b <;> rfl

theorem clock_workArea (h : b.clock = .ok b') : b'.workArea = b.workArea := by
  rcases clock_cases h with ⟨rfl, _⟩ | ⟨_, t, rolled, t', _, _, rfl⟩
  · rfl
  · exact b.mapTimer_workArea _

theorem scanline_workArea (h : b.scanline = .ok b') : b'.workArea = b.workArea := by
  cases b with
  | mmc3 r =>
    obtain ⟨own, hown, heq⟩ := Fault.bind_eq_ok_iff.mp h
    cases heq
    exact Mmc3.scanline_workArea hown
  | _ =>
    cases h
    rfl

theorem afterRead_workArea (b : Board) (addr : Nat) :
    (b.afterRead addr).registers.workArea = b.workArea := by
  cases b <;> rfl

end Board

/-! ## One event -/

namespace Machine

variable {m next : Machine} {e : Event} {answer : Answer}

/-- What lies in the area changes only through the register that has the switches. -/
theorem step_workArea (hvalid : m.cartridge.board.Valid) (h : m.step e = .ok (next, answer))
    (hkeeps : ¬ m.cartridge.board.RewritesProtection (.event e)) :
    next.cartridge.board.workArea = m.cartridge.board.workArea := by
  have heffect := step_effect h
  cases e with
  | write addr value =>
    obtain ⟨reply, hreply, _, hboard⟩ := heffect
    rw [hboard]
    exact Board.write_workArea hvalid hreply hkeeps
  | readVideo addr =>
    rw [heffect.2]
    exact Board.afterRead_workArea _ _
  | clock => exact Board.clock_workArea heffect.1
  | scanline => exact Board.scanline_workArea heffect.1
  | acknowledge =>
    rw [heffect.1]
    exact Board.mapTimer_workArea _ _
  | read addr => rw [heffect.1]
  | writeVideo addr value => rw [heffect.1]

/-- Work RAM that the board does not let through outlasts any event, even one that opens it. -/
theorem step_wram (hm : m.cartridge.WellFormed d) (harea : m.cartridge.board.workArea ≠ .ram)
    (h : m.step e = .ok (next, answer)) : next.cartridge.wram = m.cartridge.wram := by
  cases e with
  | write addr value =>
    obtain ⟨written, hwritten, heq⟩ := Fault.bind_eq_ok_iff.mp h
    cases heq
    exact hm.write_spares (fun offset hmap => harea (Board.area_of_mapPrg_wram hmap).2.2) hwritten
  | read addr =>
    obtain ⟨value, _, heq⟩ := Fault.bind_eq_ok_iff.mp h
    cases heq
    rfl
  | writeVideo addr value =>
    obtain ⟨video, _, heq⟩ := Fault.bind_eq_ok_iff.mp h
    cases heq
    rfl
  | readVideo addr =>
    obtain ⟨⟨value, c⟩, hread, heq⟩ := Fault.bind_eq_ok_iff.mp h
    cases heq
    obtain ⟨_, banks, _, rfl⟩ := Cartridge.readVideo_eq_ok_iff.mp hread
    rfl
  | clock =>
    obtain ⟨c, hclock, heq⟩ := Fault.bind_eq_ok_iff.mp h
    cases heq
    obtain ⟨board, _, heq⟩ := Fault.bind_eq_ok_iff.mp hclock
    cases heq
    rfl
  | scanline =>
    obtain ⟨c, hscanline, heq⟩ := Fault.bind_eq_ok_iff.mp h
    cases heq
    obtain ⟨board, _, heq⟩ := Fault.bind_eq_ok_iff.mp hscanline
    cases heq
    rfl
  | acknowledge =>
    cases h
    rfl

/-! ## Runs -/

/-- By induction on the events: the area stays shut, so each of them leaves work RAM. -/
theorem run_wram (hm : m.cartridge.Reachable d) (harea : m.cartridge.board.workArea ≠ .ram)
    {events : List Event}
    (hkeeps : ∀ k, ¬ m.Meets Board.RewritesProtection (events.map .event) k) {last : Machine}
    {seen : List Observation} (h : m.run (events.map .event) = .ok (last, seen)) :
    last.cartridge.wram = m.cartridge.wram ∧
      last.cartridge.board.workArea = m.cartridge.board.workArea := by
  induction events generalizing m seen with
  | nil =>
    cases h
    exact ⟨rfl, rfl⟩
  | cons e rest ih =>
    obtain ⟨next, answer, later, hstep, hrest, _⟩ := run_cons_iff.mp h
    obtain ⟨hfirst, hlater⟩ := (forall_not_meets_cons hstep).mp hkeeps
    have hwram := step_wram hm.wellFormed harea hstep
    have hsame := step_workArea hm.wellFormed.board hstep hfirst
    obtain ⟨hwrams, hareas⟩ := ih (.step hm hstep) (by rwa [hsame]) hlater hrest
    exact ⟨hwrams.trans hwram, hareas.trans hsame⟩

/-- What a run meets in its first commands, it meets. -/
theorem Meets.of_take {P : Board → Command → Prop} {commands : List Command} {n k : Nat}
    (h : m.Meets P (commands.take n) k) : m.Meets P commands k := by
  obtain ⟨before, seen, command, hrun, hcommand, hP⟩ := h
  have hk : k < n := by
    obtain ⟨hlt, _⟩ := List.getElem?_eq_some_iff.mp hcommand
    exact Nat.lt_of_lt_of_le hlt (List.length_take_le ..)
  rw [List.take_take, Nat.min_eq_left (Nat.le_of_lt hk)] at hrun
  rw [List.getElem?_take_of_lt hk] at hcommand
  exact ⟨before, seen, command, hrun, hcommand, hP⟩

theorem not_meets_of_forall {P : Board → Command → Prop} {commands : List Command}
    (h : ∀ command ∈ commands, ∀ b, ¬ P b command) (k : Nat) : ¬ m.Meets P commands k := by
  rintro ⟨before, seen, command, _, hcommand, hP⟩
  exact h command (List.mem_of_getElem? hcommand) _ hP

end Machine

theorem Cartridge.read_closed {c : Cartridge} (harea : c.board.workArea = .closed) {addr : UInt16}
    (hlow : 0x6000 ≤ addr.toNat) (hhigh : addr.toNat < 0x8000) : c.read addr = .ok 0 := by
  have hmap : c.board.mapPrg c.banks addr = .ok .openBus := by
    unfold Board.mapPrg
    simp only [show ¬ addr.toNat < 0x6000 by omega, hhigh, harea, if_false, if_true]
    rfl
  simp only [read, hmap, bind, Except.bind]
  rfl

/-- Protected work RAM survives every run of events that leaves the register with the switches
alone, byte for byte; where it is hidden, the area reads as zero all the while. -/
theorem protected_ram_survives {c : Cartridge} (hc : c.Reachable d) (hprotects : c.board.Protects)
    {video : VideoMemory} (hvideo : video.Fits d) (events : List Event)
    (hkeeps : ∀ k, ¬ Machine.Meets Board.RewritesProtection { cartridge := c, video }
      (events.map .event) k) (n : Nat) :
    ∃ m seen,
      Machine.run { cartridge := c, video } ((events.take n).map .event) = .ok (m, seen) ∧
      m.cartridge.wram = c.wram ∧
      (c.board.Hides → ∀ addr : UInt16, 0x6000 ≤ addr.toNat → addr.toNat < 0x8000 →
        m.cartridge.read addr = .ok 0) := by
  obtain ⟨m, seen, hrun, _⟩ := Machine.exists_run
    (m := { cartridge := c, video }) ⟨hc.wellFormed, hvideo⟩ ((events.take n).map .event)
  have hfirst : ∀ k, ¬ Machine.Meets Board.RewritesProtection { cartridge := c, video }
      ((events.take n).map .event) k := by
    intro k hmeets
    rw [List.map_take] at hmeets
    exact hkeeps k hmeets.of_take
  obtain ⟨hwram, harea⟩ := Machine.run_wram hc hprotects.workArea_ne hfirst hrun
  refine ⟨m, seen, hrun, hwram, ?_⟩
  intro hhides addr hlow hhigh
  exact Cartridge.read_closed (harea.trans hhides.workArea_eq) hlow hhigh

/-- Eight KiB of work RAM with a battery. -/
def Descriptor.tkrom : Descriptor :=
  { Descriptor.named "NES-TKROM" 0x8000 0 with wramSize := 0x2000, battery := true }

/-- A byte has been stored and reading switched off; a second byte for the same place is lost. -/
theorem protected_ram_survives_tkrom :
    ∃ c notes, Cartridge.load .tkrom (.zeroed 0x8000) #[] = .ok { value := .ok c, notes } ∧
      ∃ c', c.writeAll [(0x6000, 5), (0xA001, 0)] = .ok c' ∧
        ∃ last seen, Machine.run { cartridge := c', video := .cleared .tkrom }
            [.event (.write 0x6000 9), .event (.write 0x8001 3), .event .clock, .event .scanline,
              .event (.read 0x6000)] = .ok (last, seen) ∧
          last.cartridge.wram = c'.wram ∧ last.cartridge.read 0x6000 = .ok 0 := by
  have hloads : ∃ c notes, Cartridge.load .tkrom (.zeroed 0x8000) #[] =
      .ok { value := .ok c, notes } ∧ c.board = .mmc3 { fixedMirroring := false } :=
    Cartridge.load_of_configure (by decide) Array.size_replicate rfl (by decide) ⟨_, _, rfl⟩
  obtain ⟨c, notes, hload, hboard⟩ := hloads
  obtain ⟨c', hwritten, hreachable, hafter, _⟩ := Cartridge.Reachable.exists_writeAll (.load hload)
    [(0x6000, 5), (0xA001, 0)]
  rw [hboard] at hafter
  have hsame := Except.ok.inj hafter
  have hkeeps : ∀ e ∈ [Event.write 0x6000 9, .write 0x8001 3, .clock, .scanline, .read 0x6000],
      ∀ b : Board, ¬ b.RewritesProtection (.event e) := by
    simp only [List.forall_mem_cons]
    exact ⟨fun b => b.not_rewritesProtection_of_lt (by decide) _,
      fun b => b.not_rewritesProtection_of_lt (by decide) _, fun _ => not_false, fun _ => not_false,
      fun _ => not_false, nofun⟩
  have hfits : (VideoMemory.cleared .tkrom).Fits .tkrom := ⟨rfl, rfl⟩
  obtain ⟨last, seen, hrun, hwram, hreads⟩ := protected_ram_survives hreachable
    (by rw [← hsame]; exact .inr rfl) hfits _
    (Machine.not_meets_of_forall (List.forall_mem_map.mpr hkeeps)) 5
  exact ⟨c, notes, hload, c', hwritten, last, seen, hrun, hwram,
    hreads (by rw [← hsame]; exact rfl) 0x6000 (by decide) (by decide)⟩

end GamePak
