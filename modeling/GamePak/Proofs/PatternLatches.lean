import GamePak.Proofs.Histories
import GamePak.Proofs.Interleaving
import GamePak.Proofs.PatternCoverage

/-!
The latches of the MMC2. Each half of the pattern tables has two bank registers, and the tiles that
were read last say which of them counts: after a read of a tile that sets the latch the half shows
the bank of the other register, or the same again. The read itself is still of the bank before. What
a half shows is told by its own ports and its own tiles, and nothing done to the other half matters.
-/

namespace GamePak

open Command (lastWritten)

variable {d : Descriptor}

namespace Mmc2

/-- One of the two halves of the pattern tables. -/
inductive Side where
  | low
  | high

namespace Side

/-- The page that shows the half. -/
def index : Side → Nat
  | low => 0
  | high => 1

/-- The block of addresses at which the half takes its bank for a latch setting. -/
def port : Side → Latch → Nat
  | low, .fd => 0xB
  | low, .fe => 0xC
  | high, .fd => 0xD
  | high, .fe => 0xE

def PortAt (side : Side) (latch : Latch) (addr : UInt16) : Prop :=
  addr.toNat / 0x1000 = side.port latch

instance (side : Side) (latch : Latch) : DecidablePred (side.PortAt latch) :=
  fun _ => inferInstanceAs (Decidable (_ = _))

/-- The setting that a read leaves the latch of the half in, if it is a read that sets it. -/
def trigger? : Side → Nat → Option Latch
  | low, addr =>
    if addr = 0x0FD8 then some .fd else if addr = 0x0FE8 then some .fe else none
  | high, addr =>
    if 0x1FD8 ≤ addr ∧ addr ≤ 0x1FDF then some .fd
    else if 0x1FE8 ≤ addr ∧ addr ≤ 0x1FEF then some .fe
    else none

def triggered? (side : Side) : Command → Option Latch
  | .event (.readVideo addr) => side.trigger? (Cartridge.videoAddress addr)
  | _ => none

/-- The latch of the half after commands. -/
def latchAfter (side : Side) (past : List Command) : Latch :=
  (past.filterMap side.triggered?).getLast?.getD .fe

/-- The bank of the half after commands. -/
def bankAfter (side : Side) (past : List Command) : Nat :=
  (lastWritten (side.PortAt (side.latchAfter past)) past).toNat % 32

theorem latchAfter_concat {side : Side} {past : List Command} {command : Command} :
    side.latchAfter (past ++ [command]) =
      (side.triggered? command).getD (side.latchAfter past) := by
  unfold latchAfter
  rw [List.filterMap_append, List.getLast?_append, List.filterMap_cons]
  cases side.triggered? command <;> rfl

/-- The tiles that set a latch lie in the half that it is about. -/
theorem trigger?_eq_none {side : Side} {addr : Nat} (h : addr / 0x1000 ≠ side.index) :
    side.trigger? addr = none := by
  cases side with
  | low =>
    change addr / 0x1000 ≠ 0 at h
    rw [trigger?, if_neg (by omega), if_neg (by omega)]
  | high =>
    change addr / 0x1000 ≠ 1 at h
    rw [trigger?, if_neg (by omega), if_neg (by omega)]

theorem bankAfter_read {side : Side} {past : List Command} {addr : UInt16}
    (h : Cartridge.videoAddress addr / 0x1000 ≠ side.index) :
    side.bankAfter (past ++ [.event (.readVideo addr)]) = side.bankAfter past := by
  have hnone : side.triggered? (.event (.readVideo addr)) = none := trigger?_eq_none h
  rw [bankAfter, latchAfter_concat, hnone, Command.lastWritten_concat]
  rfl

theorem triggered?_of_ignores {side : Side} {command : Command} {r : Mmc2}
    (h : (Board.mmc2 r).Ignores command) : side.triggered? command = none := by
  cases command with
  | event e =>
    cases e with
    | readVideo addr => exact absurd rfl h
    | _ => rfl
  | _ => rfl

end Side

variable {r : Mmc2} {side : Side} {past : List Command} {command : Command}

def half (r : Mmc2) : Side → Half
  | .low => r.low
  | .high => r.high

/-- The register of a half that counts in a latch setting. -/
def Half.register (h : Half) : Latch → UInt8
  | .fd => h.fd
  | .fe => h.fe

theorem Half.bank_eq (h : Half) : h.bank = (h.register h.latch).toNat := by
  unfold bank register
  cases h.latch <;> rfl

/-! ## Writes and reads -/

theorem latch_write (r : Mmc2) (addr : Nat) (value : UInt8) (side : Side) :
    ((r.write addr value).registers.half side).latch = (r.half side).latch := by
  unfold write
  cases side <;> simp only <;> repeat' split
  all_goals rfl

theorem register_write (r : Mmc2) (addr : UInt16) (value : UInt8) (side : Side) (latch : Latch) :
    ((r.write addr.toNat value).registers.half side).register latch =
      if side.PortAt latch addr then value % 32 else (r.half side).register latch := by
  by_cases hport : side.PortAt latch addr
  all_goals
    simp only [hport, if_true, if_false]
    -- In each block of addresses one of the four registers is written, or none.
    unfold write
    repeat' split
    all_goals cases side <;> cases latch
    all_goals first
      | rfl
      | simp only [Side.PortAt, Side.port] at hport; omega

/-- A read sets the latch of its half, if it is of a tile that does. -/
theorem afterRead_registers (r : Mmc2) (addr : Nat) : (r.afterRead addr).registers =
    r.latched ((Side.low.trigger? addr).getD r.low.latch)
      ((Side.high.trigger? addr).getD r.high.latch) := by
  unfold afterRead Side.trigger?
  by_cases hlowFd : addr = 0x0FD8
  · simp only [if_pos hlowFd, if_neg (show ¬ (0x1FD8 ≤ addr ∧ addr ≤ 0x1FDF) by omega),
      if_neg (show ¬ (0x1FE8 ≤ addr ∧ addr ≤ 0x1FEF) by omega)]
    rfl
  by_cases hlowFe : addr = 0x0FE8
  · simp only [if_neg hlowFd, if_pos hlowFe,
      if_neg (show ¬ (0x1FD8 ≤ addr ∧ addr ≤ 0x1FDF) by omega),
      if_neg (show ¬ (0x1FE8 ≤ addr ∧ addr ≤ 0x1FEF) by omega)]
    rfl
  simp only [if_neg hlowFd, if_neg hlowFe]
  by_cases hhighFd : 0x1FD8 ≤ addr ∧ addr ≤ 0x1FDF
  · simp only [if_pos hhighFd]
    rfl
  by_cases hhighFe : 0x1FE8 ≤ addr ∧ addr ≤ 0x1FEF
  · simp only [if_neg hhighFd, if_pos hhighFe]
    rfl
  · simp only [if_neg hhighFd, if_neg hhighFe]
    rfl

theorem latch_afterRead (r : Mmc2) (addr : Nat) (side : Side) :
    ((r.afterRead addr).registers.half side).latch =
      (side.trigger? addr).getD (r.half side).latch := by
  rw [afterRead_registers]
  cases side <;> rfl

theorem register_afterRead (r : Mmc2) (addr : Nat) (side : Side) (latch : Latch) :
    ((r.afterRead addr).registers.half side).register latch =
      (r.half side).register latch := by
  rw [afterRead_registers]
  cases side <;> cases latch <;> rfl

/-! ## Histories -/

/-- The latches are as the reads left them and the registers as the writes did. -/
def Follows (past : List Command) (r : Mmc2) : Prop :=
  ∀ side, (r.half side).latch = side.latchAfter past ∧
    ∀ latch, (r.half side).register latch = lastWritten (side.PortAt latch) past % 32

theorem Follows.bank (h : r.Follows past) (side : Side) :
    (r.half side).bank = side.bankAfter past := by
  obtain ⟨hlatch, hregister⟩ := h side
  rw [Half.bank_eq, hregister, hlatch, UInt8.toNat_mod]
  rfl

theorem Follows.moves {r' : Mmc2} (h : r.Follows past)
    (hmoves : command.Moves (.mmc2 r) (.mmc2 r')) : r'.Follows (past ++ [command]) := by
  intro side
  obtain ⟨hlatch, hregister⟩ := h side
  rw [Side.latchAfter_concat]
  cases hmoves.reacts with
  | @write addr value _ hreply heq =>
    cases hreply
    cases heq
    refine ⟨(r.latch_write addr.toNat value side).trans hlatch, ?_⟩
    intro latch
    rw [register_write, Command.lastWritten_write, hregister]
    split <;> rfl
  | read _ heq =>
    cases heq
    refine ⟨?_, ?_⟩
    · rw [latch_afterRead, hlatch]
      rfl
    · intro latch
      rw [register_afterRead, hregister, Command.lastWritten_concat]
      rfl
  | clock _ ht => cases ht
  | scanline hkind => cases hkind
  | ignored hignored heq =>
    cases heq
    refine ⟨?_, ?_⟩
    · rw [Side.triggered?_of_ignores hignored, hlatch]
      rfl
    · intro latch
      rw [hregister, Command.lastWritten_concat, hignored.written?]
      rfl

end Mmc2

namespace Cartridge

variable {c : Cartridge} {past : List Command} {r : Mmc2} {side : Mmc2.Side}

theorem CameOf.latched (hc : c.CameOf d past) (hboard : c.board = .mmc2 r) : r.Follows past := by
  refine hc.keeps_chip (k := .mmc2) (P := Mmc2.Follows) ?_ Mmc2.Follows.moves hboard
  intro reply r hstart hr
  obtain ⟨own, hown, rfl⟩ := Option.map_eq_some_iff.mp hstart
  obtain ⟨_, rfl⟩ := Mmc2.start?_eq_some hown
  cases hr
  intro side
  cases side <;> exact ⟨rfl, fun latch => by cases latch <;> rfl⟩

namespace Reachable

/-- All cartridges of the descriptor have the chip if one has. -/
theorem exists_mmc2 (hc : c.Reachable d) (hkind : c.board.kind = .mmc2) {c' : Cartridge}
    (hc' : c'.Reachable d) : ∃ r, c'.board = .mmc2 r := by
  have hsame : c'.board.kind = .mmc2 :=
    (hc'.wellFormed.chosen.unique hc.wellFormed.chosen).trans hkind
  exact Board.exists_of_kind hsame

/-- Pattern memory in two pages of 4 KiB. -/
theorem cut_mmc2 (hc : c.Reachable d) (hboard : c.board = .mmc2 r) :
    c.banks.chr.IsCut d.patternSize 0 4096 2 := by
  have hfitted := hc.wellFormed.banks
  rw [hboard] at hfitted
  exact show c.banks.chr.IsCut d.patternSize 0 (8 * 1024 / 2) 2 from hfitted.chr

theorem bank_mmc2 (hc : c.Reachable d) (hboard : c.board = .mmc2 r) (side : Mmc2.Side) :
    c.banks.chr.bank side.index =
      .ok ((r.half side).bank % max (d.patternSize / 4096) 1) := by
  have hstands : c.banks.Stands (.chr side.index (r.half side).bank) := by
    refine hc.stands _ ?_
    rw [hboard]
    refine List.mem_append_left _ ?_
    cases side
    · exact List.mem_cons_self ..
    · exact List.mem_cons_of_mem _ (List.mem_cons_self ..)
  rw [hstands.bank_chr hc.wellFormed.banks, (hc.cut_mmc2 hboard).bankCount_eq]

theorem fetch_mmc2 (hc : c.Reachable d) (hboard : c.board = .mmc2 r) (video : VideoMemory)
    {addr : Nat} (haddr : addr / 0x1000 = side.index) :
    c.fetch video addr = (if d.usesChrRam then video.patterns else c.chr).load
      ((r.half side).bank % max (d.patternSize / 4096) 1 * 4096 +
        addr % 4096 % d.patternSize) := by
  have hcut := hc.cut_mmc2 hboard
  have hlow : addr < 0x2000 := by
    have hside : side.index ≤ 1 := by cases side <;> decide
    omega
  have hbank := hc.bank_mmc2 hboard side
  rw [← haddr] at hbank
  have hresolve := hcut.resolve_eq hc.wellFormed.valid.patternSize_pos (Nat.zero_le addr) hbank
  rw [hcut.mod_page hc.wellFormed.valid.patternSize_pos] at hresolve
  simp only [fetch, Banks.mapPpu, hlow, if_true, hresolve, bind, Except.bind, pure, Except.pure,
    hc.wellFormed.descriptor]
  split <;> rfl

end Reachable

end Cartridge

/-- On a fresh cartridge of the chip every read in a half of the pattern tables gives, after any
run, the byte of the bank that the writes to the half's ports and the reads of its tiles before it
have left there. The read itself is not among them, and it leaves the other half alone. -/
theorem latched_banks_follow_reads {prg chr : Memory} {c : Cartridge} {notes : List Note}
    (hload : Cartridge.load d prg chr = .ok { value := .ok c, notes })
    (hkind : c.board.kind = .mmc2) {video : VideoMemory} (hvideo : video.Fits d)
    (before : List Command) (hbefore : c.TakesNone before) :
    ∃ mid seen, Machine.run { cartridge := c, video } before = .ok (mid, seen) ∧
      ∀ addr, ∃ value next, mid.perform (.event (.readVideo addr)) = .ok (next, .byte value) ∧
        ∀ side : Mmc2.Side,
          if Cartridge.videoAddress addr / 0x1000 = side.index then
            (if d.usesChrRam then mid.video.patterns else chr).load
              (side.bankAfter before % max (d.patternSize / 4096) 1 * 4096 +
                Cartridge.videoAddress addr % 4096 % d.patternSize) = .ok value
          else
            next.cartridge.banks.chr.bank side.index =
              mid.cartridge.banks.chr.bank side.index := by
  have hc : c.CameOf d [] := .load hload
  obtain ⟨mid, seen, hrun, hmid, hfits⟩ :=
    Machine.exists_run_cameOf (m := { cartridge := c, video }) hc hvideo hbefore
  rw [List.nil_append] at hmid
  refine ⟨mid, seen, hrun, ?_⟩
  intro addr
  obtain ⟨value, c', hread⟩ := hmid.reachable.wellFormed.exists_readVideo hfits addr
  have hperform : mid.perform (.event (.readVideo addr)) =
      .ok ({ mid with cartridge := c' }, .byte value) :=
    Fault.bind_eq_ok_iff.mpr ⟨(value, c'), hread, rfl⟩
  have hnext : c'.CameOf d (before ++ [.event (.readVideo addr)]) :=
    .perform hmid hperform (by simp)
  refine ⟨value, _, hperform, ?_⟩
  intro side
  obtain ⟨r, hboard⟩ := hc.reachable.exists_mmc2 hkind hmid.reachable
  obtain ⟨r', hboard'⟩ := hc.reachable.exists_mmc2 hkind hnext.reachable
  split
  · rename_i hside
    have hfetch := (Cartridge.readVideo_eq_ok_iff.mp hread).1
    rw [hmid.reachable.fetch_mmc2 hboard mid.video hside, (hmid.latched hboard).bank side,
      Machine.run_chr hrun] at hfetch
    obtain ⟨_, _, _, _, found, _, _, heq⟩ := Cartridge.load_eq_ok_iff.mp hload
    have hchr : c.chr = chr := congrArg Cartridge.chr heq
    rw [show Machine.cartridge { cartridge := c, video } = c from rfl, hchr] at hfetch
    exact hfetch
  · rename_i hside
    rw [hmid.reachable.bank_mmc2 hboard side, (hmid.latched hboard).bank side,
      hnext.reachable.bank_mmc2 hboard' side, (hnext.latched hboard').bank side,
      Mmc2.Side.bankAfter_read hside]

/-- The largest cartridge of the chip. -/
def Descriptor.pnrom : Descriptor := .named "NES-PNROM" 0x20000 0x20000

/-- Pattern memory in which every byte is the number of its bank. -/
def Memory.numbered (size : Nat) : Memory :=
  Array.ofFn fun i : Fin size => UInt8.ofNat (i.val / 4096)

theorem Memory.load_numbered {size n : Nat} (h : n < size) :
    (numbered size).load n = .ok (UInt8.ofNat (n / 4096)) := by
  unfold load numbered
  rw [Array.getElem?_ofFn, dif_pos h]

theorem Descriptor.pnrom_load :
    ∃ c notes, Cartridge.load .pnrom (.zeroed 0x20000) (.numbered 0x20000) =
        .ok { value := .ok c, notes } ∧ c.board = .mmc2 {} :=
  Cartridge.load_of_configure (by decide) Array.size_replicate Array.size_ofFn (by decide)
    ⟨_, _, rfl⟩

/-- A tile of the low half is read from the bank before, sets the latch, and the next is read from
the bank of the other register; a tile of the high half makes no difference. -/
theorem latched_banks_follow_reads_pnrom :
    ∃ c notes, Cartridge.load .pnrom (.zeroed 0x20000) (.numbered 0x20000) =
        .ok { value := .ok c, notes } ∧
      (∃ mid seen next, Machine.run { cartridge := c, video := .cleared .pnrom }
          [.event (.write 0xC000 3), .event (.write 0xB000 37)] = .ok (mid, seen) ∧
        mid.perform (.event (.readVideo 0x0FD8)) = .ok (next, .byte 3)) ∧
      ∃ mid seen next, Machine.run { cartridge := c, video := .cleared .pnrom }
          [.event (.write 0xC000 3), .event (.write 0xB000 37), .event (.readVideo 0x0FD8),
            .event (.readVideo 0x1FE8)] = .ok (mid, seen) ∧
        mid.perform (.event (.readVideo 0x0FD8)) = .ok (next, .byte 5) := by
  obtain ⟨c, notes, hload, hboard⟩ := Descriptor.pnrom_load
  have hkind : c.board.kind = .mmc2 := congrArg Board.kind hboard
  have hfits : (VideoMemory.cleared .pnrom).Fits .pnrom := ⟨rfl, rfl⟩
  have hread : ∀ before, c.TakesNone before → ∀ bank < 32, Mmc2.Side.low.bankAfter before = bank →
      ∃ mid seen next, Machine.run { cartridge := c, video := .cleared .pnrom } before =
          .ok (mid, seen) ∧
        mid.perform (.event (.readVideo 0x0FD8)) = .ok (next, .byte (.ofNat bank)) := by
    intro before hbefore bank hbank hafter
    obtain ⟨mid, seen, hrun, hreads⟩ := latched_banks_follow_reads hload hkind hfits before hbefore
    obtain ⟨value, next, hperform, hsides⟩ := hreads 0x0FD8
    have hlow := hsides .low
    rw [if_pos (by decide), if_neg (by decide), hafter] at hlow
    have hcount : max (Descriptor.pnrom.patternSize / 4096) 1 = 32 := by decide
    have hplace : Cartridge.videoAddress 0x0FD8 % 4096 % Descriptor.pnrom.patternSize = 0x0FD8 := by
      decide
    rw [hcount, hplace, Nat.mod_eq_of_lt hbank, Memory.load_numbered (by omega),
      show (bank * 4096 + 0x0FD8) / 4096 = bank by omega] at hlow
    rw [← Except.ok.inj hlow] at hperform
    exact ⟨mid, seen, next, hrun, hperform⟩
  exact ⟨c, notes, hload,
    hread _ (by intro s hs; simp at hs) 3 (by decide) (by decide),
    hread _ (by intro s hs; simp at hs) 5 (by decide) (by decide)⟩

end GamePak
