import GamePak.Proofs.ResetVector

/-!
All of program memory can be shown. Each kind of board has a page that the processor can put any
bank into, with a few writes and whatever has been written before, and the registers are as wide
as the largest program memory that the board takes needs them to be. Boards that switch nothing
show all that they take.
-/

namespace GamePak

variable {d : Descriptor}

namespace Board

variable {b b' : Board} {bank : Nat}

theorem writeAll_cons {addr : UInt16} {value : UInt8} {reply : Reply Board}
    (h : b.write addr value = .ok reply) (rest : List (UInt16 × UInt8)) :
    b.writeAll ((addr, value) :: rest) = reply.registers.writeAll rest := by
  simp only [writeAll, List.foldlM_cons, h]
  rfl

theorem writeAll_append {first : List (UInt16 × UInt8)} (h : b.writeAll first = .ok b')
    (rest : List (UInt16 × UInt8)) : b.writeAll (first ++ rest) = b'.writeAll rest := by
  unfold writeAll at h ⊢
  rw [List.foldlM_append, h]
  rfl

/-- Writes bring a selection about: either the registers then ask for it, or one more write makes
it. -/
def Brings (b : Board) (s : Select) : Prop :=
  ∃ writes b', b.writeAll writes = .ok b' ∧
    (s ∈ b'.standing ∨
      ∃ addr value reply, b'.write addr value = .ok reply ∧
        Select.last? reply.selects s.slot = some s)

theorem Brings.of_standing {s : Select} (h : s ∈ b.standing) : b.Brings s :=
  ⟨[], b, rfl, .inl h⟩

theorem Brings.of_write (addr : UInt16) (value : UInt8) {reply : Reply Board} {s : Nat → Select}
    {shown : Nat} (h : b.write addr value = .ok reply)
    (hlast : Select.last? reply.selects (s shown).slot = some (s shown))
    (hshown : shown = bank) : b.Brings (s bank) := by
  rw [hshown] at hlast
  exact ⟨[], b, rfl, .inr ⟨addr, value, reply, h, hlast⟩⟩

theorem Brings.after {addr : UInt16} {value : UInt8} {reply : Reply Board}
    {s : Select} (h : b.write addr value = .ok reply) (hbrings : reply.registers.Brings s) :
    b.Brings s := by
  obtain ⟨writes, b', hwrites, hshown⟩ := hbrings
  refine ⟨(addr, value) :: writes, b', ?_, hshown⟩
  rw [writeAll_cons h]
  exact hwrites

end Board

/-! ## The serial input of the MMC1 -/

namespace Mmc1

variable {r : Mmc1} {addr : Nat} {value : UInt8}

/-- The serial input after one more bit. -/
def shifted (shift value : UInt8) : UInt8 := shift / 2 ||| value % 2 * 16

theorem shifted_five : ∀ n < 32,
    shifted (shifted (shifted (shifted (shifted 0 (.ofNat n)) (.ofNat (n / 2))) (.ofNat (n / 4)))
      (.ofNat (n / 8))) (.ofNat (n / 16)) = .ofNat n := by
  decide

theorem write_bit {shift count : UInt8} (haddr : 0x8000 ≤ addr) (hvalue : value.toNat < 128)
    (hcount : count < 4) :
    { r with shift, shiftCount := count }.write addr value = .ok
      { registers := { r with shift := shifted shift value, shiftCount := count + 1 } } := by
  have hnext : Count.nextByte count = .ok (count + 1) :=
    nextByte_of_lt (UInt8.lt_trans hcount (by decide))
  have hfew : count + 1 < 5 := by
    rw [UInt8.lt_iff_toNat_lt] at hcount ⊢
    simp only [UInt8.toNat_add, UInt8.reduceToNat] at hcount ⊢
    omega
  unfold write
  rw [if_neg (by omega), Nat.testBit_lt_two_pow hvalue, if_neg (by simp), hnext]
  simp only [bind, Except.bind, hfew, if_true]
  rfl

theorem write_lastBit {shift : UInt8} (haddr : 0x8000 ≤ addr) (hvalue : value.toNat < 128) :
    { r with shift, shiftCount := 4 }.write addr value =
      .ok (r.commit addr (shifted shift value)) := by
  unfold write
  rw [if_neg (by omega), Nat.testBit_lt_two_pow hvalue, if_neg (by simp)]
  rfl

/-- The writes that shift in a number of five bits, lowest bit first. -/
def serial (addr : UInt16) (n : Nat) : List (UInt16 × UInt8) :=
  [(addr, .ofNat n), (addr, .ofNat (n / 2)), (addr, .ofNat (n / 4)), (addr, .ofNat (n / 8)),
    (addr, .ofNat (n / 16))]

theorem writeAll_bit {addr : UInt16} {shift count : UInt8} (haddr : 0x8000 ≤ addr.toNat)
    (hvalue : value.toNat < 128) (hcount : count < 4) (rest : List (UInt16 × UInt8)) :
    (Board.mmc1 { r with shift, shiftCount := count }).writeAll ((addr, value) :: rest) =
      (Board.mmc1 { r with
        shift := shifted shift value, shiftCount := count + 1 }).writeAll rest := by
  have hwrite : (Board.mmc1 { r with shift, shiftCount := count }).write addr value = _ :=
    Fault.bind_eq_ok_iff.mpr ⟨_, write_bit haddr hvalue hcount, rfl⟩
  exact Board.writeAll_cons hwrite rest

/-- Into an empty input, five writes bring a number to the register that their address names. -/
theorem writeAll_serial (r : Mmc1) {addr : UInt16} (haddr : 0x8000 ≤ addr.toNat) {n : Nat}
    (hn : n < 32) :
    (Board.mmc1 { r with shift := 0, shiftCount := 0 }).writeAll (serial addr n) =
      .ok (.mmc1 (r.commit addr.toNat (.ofNat n)).registers) := by
  have hsmall : ∀ m ≤ n, (UInt8.ofNat m).toNat < 128 := by
    intro m hm
    rw [UInt8.toNat_ofNat_of_lt' (Nat.lt_of_le_of_lt hm (Nat.lt_trans hn (by decide)))]
    omega
  have hlast : ∀ shift, (Board.mmc1 { r with shift, shiftCount := 4 }).write addr
      (.ofNat (n / 16)) = .ok ((r.commit addr.toNat (shifted shift (.ofNat (n / 16)))).map .mmc1) :=
    fun shift => Fault.bind_eq_ok_iff.mpr
      ⟨_, write_lastBit haddr (hsmall _ (Nat.div_le_self ..)), rfl⟩
  unfold serial
  rw [writeAll_bit haddr (hsmall _ (Nat.le_refl n)) (by decide),
    writeAll_bit haddr (hsmall _ (Nat.div_le_self ..)) (by decide),
    writeAll_bit haddr (hsmall _ (Nat.div_le_self ..)) (by decide),
    writeAll_bit haddr (hsmall _ (Nat.div_le_self ..)) (by decide),
    show (0 : UInt8) + 1 + 1 + 1 + 1 = 4 from rfl, Board.writeAll_cons (hlast _),
    shifted_five n hn]
  rfl

/-- Giving a number to a register leaves the input empty. -/
theorem commit_emptied (r : Mmc1) (addr : Nat) (value : UInt8) :
    { (r.commit addr value).registers with shift := 0, shiftCount := 0 } =
      (r.commit addr value).registers := by
  unfold commit
  simp only
  repeat' split
  all_goals rfl

/-- Whatever the input holds, a reset and ten writes fill two registers. -/
theorem brings (r : Mmc1) (first second : UInt16) (hfirst : 0x8000 ≤ first.toNat)
    (hsecond : 0x8000 ≤ second.toNat) {m n : Nat} (hm : m < 32) (hn : n < 32) {s : Select}
    (hs : s ∈ ((r.reset.registers.commit first.toNat (.ofNat m)).registers.commit second.toNat
      (.ofNat n)).registers.selects) : (Board.mmc1 r).Brings s := by
  let emptied : Mmc1 := r.reset.registers
  let once : Mmc1 := (emptied.commit first.toNat (.ofNat m)).registers
  let twice : Mmc1 := (once.commit second.toNat (.ofNat n)).registers
  have hreset : (Board.mmc1 r).writeAll [(0x8000, 0x80)] = .ok (.mmc1 emptied) := rfl
  have honce : (Board.mmc1 emptied).writeAll (serial first m) = .ok (.mmc1 once) :=
    emptied.writeAll_serial hfirst hm
  have htwice : (Board.mmc1 once).writeAll (serial second n) = .ok (.mmc1 twice) := by
    have hwrites := once.writeAll_serial hsecond hn
    rw [commit_emptied] at hwrites
    exact hwrites
  refine ⟨[(0x8000, 0x80)] ++ (serial first m ++ serial second n), .mmc1 twice, ?_, .inl ?_⟩
  · rw [Board.writeAll_append hreset, Board.writeAll_append honce, htwice]
  · exact List.mem_append_left _ hs

/-- The two registers select any bank of either half: the pattern register holds the outer bank
bit. -/
theorem brings_prg (r : Mmc1) {bank : Nat} (hbank : bank < if r.outerPrg then 32 else 16) :
    (Board.mmc1 r).Brings (.prg 0 bank) := by
  have hlt : bank < 32 := by
    split at hbank <;> omega
  let outer : Mmc1 := (r.reset.registers.commit 0xA000 (.ofNat (bank / 16 * 16))).registers
  let inner : Mmc1 := (outer.commit 0xE000 (.ofNat (bank % 16))).registers
  have hshown : inner.outerBank + inner.prgSelect.toNat % 16 = bank := by
    have hprg : inner.prgSelect = .ofNat (bank % 16) % 16 := rfl
    have hchr : inner.chrSelect0 = .ofNat (bank / 16 * 16) % 32 := rfl
    have hwired : inner.outerPrg = r.outerPrg := rfl
    have hbits : ∀ bank < 32, ∀ outer : Bool, bank < (if outer then 32 else 16) →
        (if outer && (UInt8.ofNat (bank / 16 * 16) % 32).toNat.testBit 4 then 16 else 0) +
          (UInt8.ofNat (bank % 16) % 16).toNat % 16 = bank := by
      decide
    rw [outerBank, hprg, hchr, hwired]
    exact hbits bank hlt r.outerPrg hbank
  have hselect : .prg 0 (inner.outerBank + inner.prgSelect.toNat % 16) ∈ inner.prgSelects :=
    List.mem_cons_self ..
  rw [hshown] at hselect
  have hmem : .prg 0 bank ∈ inner.selects :=
    List.mem_append_right _ (List.mem_cons_of_mem _ hselect)
  exact r.brings 0xA000 0xE000 (by decide) (by decide) (by omega) (by omega) hmem

end Mmc1

/-! ## Every board -/

/-- A page above work RAM that every bank can be put into, or the only one. -/
def BoardKind.switchedPage : BoardKind → Nat
  | mmc3 => 1
  | vrc4 => 1
  | fme7 => 1
  | _ => 0

theorem BoardKind.switchedPage_bounds (k : BoardKind) :
    0x8000 ≤ k.layout.prgStart + k.switchedPage * k.layout.prgPageSize ∧
      k.switchedPage < k.layout.prgPages := by
  cases k with
  | discrete b => cases b <;> decide
  | _ => decide

/-- Two writes, the first of which names a register and the modes, put any bank into it. -/
theorem Mmc3.brings (r : Mmc3) (select : UInt8) {shown : Nat} (hshown : shown < 256) {s : Select}
    (hs : ∀ filled : Mmc3, filled.select = select → filled.bank select.toNat = shown →
      s ∈ filled.selects) : (Board.mmc3 r).Brings s := by
  let chosen : Mmc3 := { r with select }
  let filled : Mmc3 := { chosen with banks := chosen.banks.write select.toNat (.ofNat shown) }
  have hchoose : (Board.mmc3 r).write 0x8000 select =
      .ok { registers := .mmc3 chosen, selects := chosen.selects } := rfl
  have hfill : (Board.mmc3 chosen).write 0x8001 (.ofNat shown) =
      .ok { registers := .mmc3 filled, selects := filled.selects } := rfl
  have hbank : filled.bank select.toNat = shown := by
    rw [bank, RegisterFile.read_write, if_pos rfl]
    exact UInt8.toNat_ofNat_of_lt' hshown
  exact .after hchoose (.after hfill
    (.of_standing (List.mem_append_left _ (hs filled rfl hbank))))

theorem Mmc3.brings_prg (r : Mmc3) {shown : Nat} (hshown : shown < 256) :
    (Board.mmc3 r).Brings (.prg 1 shown) := by
  refine r.brings 7 hshown fun filled _ hbank => List.mem_append_left _ ?_
  have hselect : .prg 1 (filled.bank 7) ∈ filled.prgSelects := by
    unfold prgSelects
    split <;> simp
  rw [← hbank]
  exact hselect

/-- The older chips have their registers below program memory and nowhere else. -/
theorem Fcg.exists_decoded (r : Fcg) {register : Nat} (h : register < 16) :
    ∃ addr : UInt16, r.Decodes addr.toNat ∧ addr.toNat % 16 = register := by
  have htoNat : ∀ base < 0xFFF0, (UInt16.ofNat (base + register)).toNat = base + register :=
    fun base hbase => UInt16.toNat_ofNat_of_lt' (show base + register < 0x10000 by omega)
  by_cases hold : r.variety = 4
  · refine ⟨.ofNat (0x6000 + register), ?_, ?_⟩
    · simp only [Decodes, hold, if_true, htoNat 0x6000 (by decide)]
      omega
    · rw [htoNat 0x6000 (by decide)]
      omega
  · refine ⟨.ofNat (0x8000 + register), ?_, ?_⟩
    · simp only [Decodes, hold, if_false, htoNat 0x8000 (by decide)]
      split <;> omega
    · rw [htoNat 0x8000 (by decide)]
      omega

theorem Board.Wired.brings {b : Board} (h : b.Wired d) (hpow : IsPowerOfTwo d.prgSize) {bank : Nat}
    (hbank : bank * b.kind.layout.prgPageSize < d.prgSize) :
    b.Brings (.prg b.kind.switchedPage bank) := by
  have hmax := Nat.lt_of_lt_of_le hbank h.holds.2
  have hvalue : ∀ n < 256, (UInt8.ofNat n).toNat = n := fun n hn => UInt8.toNat_ofNat_of_lt' hn
  have hmod : ∀ count ≤ 256, bank < count → (UInt8.ofNat bank).toNat % count = bank := by
    intro count hcount hlt
    rw [hvalue bank (by omega), Nat.mod_eq_of_lt hlt]
  cases b with
  | discrete chip =>
    cases chip with
    | nrom =>
      have hzero : bank = 0 := by
        have hone : bank * 0x8000 < 0x8000 := hmax
        omega
      rw [hzero]
      exact .of_standing (List.mem_singleton_self _)
    | cnrom =>
      have hzero : bank = 0 := by
        have hone : bank * 0x8000 < 0x8000 := hmax
        omega
      rw [hzero]
      exact .of_standing (List.mem_singleton_self _)
    | uxrom =>
      have hcount : bank * 0x4000 < 0x400000 := hmax
      exact .of_write 0x8000 (.ofNat bank) rfl rfl (hvalue bank (by omega))
    | axrom =>
      have hcount : bank * 0x8000 < 0x80000 := hmax
      exact .of_write 0x8000 (.ofNat bank) rfl rfl (hmod 16 (by decide) (by omega))
    | colorDreams =>
      have hcount : bank * 0x8000 < 0x20000 := hmax
      exact .of_write 0x8000 (.ofNat bank) rfl rfl (hmod 4 (by decide) (by omega))
    | gxrom =>
      have hcount : bank * 0x8000 < 0x20000 := hmax
      exact .of_write 0x8000 (.ofNat (bank * 16)) rfl rfl
        (by rw [hvalue (bank * 16) (by omega)]; omega)
  | mmc1 r =>
    refine r.brings_prg ?_
    have hcount : bank * 0x4000 < d.prgSize := hbank
    have hhigh : d.prgSize ≤ 0x80000 := h.holds.2
    rw [h.outerPrg]
    by_cases hlarge : d.prgSize = 0x80000
    · rw [if_pos (by simpa using hlarge)]
      omega
    · have hhalf : 2 * d.prgSize ≤ 0x80000 := hpow.two_mul_le (by decide) (by omega)
      rw [if_neg (by simpa using hlarge)]
      omega
  | mmc2 r =>
    have hcount : bank * 0x2000 < 0x20000 := hmax
    exact .of_write 0xA000 (.ofNat bank) rfl rfl (hmod 16 (by decide) (by omega))
  | mmc3 r =>
    have hcount : bank * 0x2000 < 0x80000 := hmax
    exact r.brings_prg (by omega)
  | fcg r =>
    have hcount : bank * 0x4000 < 0x40000 := hmax
    obtain ⟨addr, hdecodes, hregister⟩ := r.exists_decoded (show 8 < 16 by decide)
    have hwrite : r.write addr.toNat (.ofNat bank) =
        { registers := r, selects := [.prg 0 ((UInt8.ofNat bank).toNat % 16)] } := by
      unfold Fcg.write
      rw [if_neg (not_not_intro hdecodes), hregister]
      rfl
    exact .of_write addr (.ofNat bank) (congrArg (Except.ok ∘ Reply.map fcg) hwrite) rfl
      (hmod 16 (by decide) (by omega))
  | vrc4 r =>
    have hcount : bank * 0x2000 < 0x40000 := hmax
    exact .of_write 0xA000 (.ofNat bank) rfl rfl (hmod 32 (by decide) (by omega))
  | fme7 r =>
    have hcount : bank * 0x2000 < 0x80000 := hmax
    refine .after (show (fme7 r).write 0x8000 9 = _ from rfl) ?_
    exact .of_write 0xA000 (.ofNat bank) rfl rfl (hmod 64 (by decide) (by omega))
  | codemasters r =>
    have hcount : bank * 0x4000 < 0x40000 := hmax
    exact .of_write 0xC000 (.ofNat bank) rfl rfl (hmod 16 (by decide) (by omega))
  | vrc3 r =>
    have hcount : bank * 0x4000 < 0x20000 := hmax
    exact .of_write 0xF000 (.ofNat bank) rfl rfl (hmod 8 (by decide) (by omega))

namespace Cartridge.Reachable

variable {c : Cartridge}

theorem exists_shown (hc : c.Reachable d) {s : Select} (h : c.board.Brings s) :
    ∃ writes c', c.writeAll writes = .ok c' ∧ c'.Reachable d ∧ c'.prg = c.prg ∧
      c'.banks.Stands s := by
  obtain ⟨writes, b, hwrites, hshown⟩ := h
  obtain ⟨c', hwritten, hreachable, hboard, hprg⟩ := hc.exists_writeAll writes
  obtain rfl : b = c'.board := Except.ok.inj (hwrites.symm.trans hboard)
  rcases hshown with hstanding | ⟨addr, value, reply, hreply, hlast⟩
  · exact ⟨writes, c', hwritten, hreachable, hprg, hreachable.stands _ hstanding⟩
  · obtain ⟨final, found, hfinal, hafter, hfound, hbanks, _, hsame⟩ :=
      hreachable.exists_write addr value
    obtain rfl : reply = found := Except.ok.inj (hreply.symm.trans hfound)
    refine ⟨writes ++ [(addr, value)], final.value, ?_, hafter, hsame.trans hprg,
      Banks.applyAll_stands hbanks hlast⟩
    unfold writeAll at hwritten ⊢
    rw [List.foldlM_append, hwritten]
    simp only [bind, Except.bind, List.foldlM_cons, hfinal]
    rfl

/-- A bank that stands in a page above work RAM is read byte by byte. -/
theorem readsRom_of_stands (hc : c.Reachable d) {page bank offset : Nat}
    (hstands : c.banks.Stands (.prg page bank))
    (hpage : page < c.board.kind.layout.prgPages)
    (hlow : 0x8000 ≤ c.board.kind.layout.prgStart + page * c.board.kind.layout.prgPageSize)
    (hoffset : offset < c.board.kind.layout.prgPageSize)
    (hsize : bank * c.board.kind.layout.prgPageSize + offset < d.prgSize) :
    ∃ addr : UInt16, 0x8000 ≤ addr.toNat ∧
      c.ReadsRom addr (bank * c.board.kind.layout.prgPageSize + offset) := by
  have hcart := hc.wellFormed
  have hcut := hcart.banks.prg
  have hstop := c.board.kind.layout_covers.prgStop
  have hbank := hstands.bank_prg hcart.banks
  rw [Nat.mod_eq_of_lt (hcut.lt_bankCount (by omega))] at hbank
  have hresolve := hcut.resolve_page (by omega) c.board.kind.layout_aligned hbank hoffset
  rw [Nat.mod_eq_of_lt (Nat.lt_min.mpr ⟨hoffset, by omega⟩)] at hresolve
  have htop := Nat.mul_le_mul_right c.board.kind.layout.prgPageSize hpage
  rw [Nat.succ_mul] at htop
  obtain ⟨addr, haddr⟩ : ∃ addr : UInt16, addr.toNat =
      c.board.kind.layout.prgStart + page * c.board.kind.layout.prgPageSize + offset :=
    ⟨.ofNat _, UInt16.toNat_ofNat_of_lt' (Nat.lt_of_lt_of_le (by omega) (Nat.le_of_eq hstop))⟩
  rw [← haddr] at hresolve
  exact ⟨addr, by omega, hcart.readsRom (by omega) hresolve⟩

end Cartridge.Reachable

/-- No byte of program memory is out of reach: from every reachable cartridge, some writes bring it
to an address of the processor. -/
theorem every_prg_byte_reachable {c : Cartridge} (hc : c.Reachable d) {i : Nat}
    (hi : i < d.prgSize) :
    ∃ writes c' addr, c.writeAll writes = .ok c' ∧ c'.prg = c.prg ∧ 0x6000 ≤ addr.toNat ∧
      c'.ReadsRom addr i := by
  have hcut := hc.wellFormed.banks.prg
  have hpos := hcut.isPowerOfTwo_pageSize.pos
  have hpow : IsPowerOfTwo d.prgSize := hcut.size_zero_or.resolve_left (by omega)
  have hbank := Nat.lt_of_le_of_lt (Nat.div_mul_le_self i c.board.kind.layout.prgPageSize) hi
  obtain ⟨writes, c', hwritten, hreachable, hprg, hstands⟩ :=
    hc.exists_shown (hc.wired.brings hpow hbank)
  have hkind : c.board.kind = c'.board.kind :=
    hc.wellFormed.chosen.unique hreachable.wellFormed.chosen
  rw [hkind] at hstands hpos
  obtain ⟨hlow, hpage⟩ := c'.board.kind.switchedPage_bounds
  have hplace := Nat.div_add_mod' i c'.board.kind.layout.prgPageSize
  obtain ⟨addr, habove, hreads⟩ := hreachable.readsRom_of_stands hstands hpage hlow
    (Nat.mod_lt i hpos) (by rw [hplace]; exact hi)
  rw [hplace] at hreads
  exact ⟨writes, c', addr, hwritten, hprg, by omega, hreads⟩

/-- A byte of the second half, which is out of sight at power-on. -/
theorem every_prg_byte_reachable_surom :
    ∃ c notes, Cartridge.load .surom (.zeroed 0x80000) #[] = .ok { value := .ok c, notes } ∧
      ∃ writes c' addr, c.writeAll writes = .ok c' ∧ c'.prg = c.prg ∧ 0x6000 ≤ addr.toNat ∧
        c'.ReadsRom addr 0x5ABCD := by
  obtain ⟨c, notes, hload, _⟩ := Descriptor.surom_load
  exact ⟨c, notes, hload, every_prg_byte_reachable (.load hload) (by decide)⟩

end GamePak
