import Mathlib.Algebra.Group.Nat.Defs
import GamePak.Proofs.Selections

/-!
Windows in plain arithmetic. A window masks the bank numbers that it is given and joins banks and
offsets bit by bit; since its sizes are powers of two, the one is a remainder and the other a sum.
So the bank of a page is the last one asked for, modulo the number of banks, and the offset behind
an address is reckoned from it by multiplication and remainder. Words of 64 bits are wide enough for
all of this.
-/

namespace GamePak

namespace Window

/-! ## Calls -/

/-- What can be asked of a window: a bank for a page, the last bank for a page, or banks for all
pages at once. -/
inductive Call where
  | select (page bank : Nat)
  | selectLast (page : Nat)
  | restore (banks : List Nat)

namespace Call

/-- The call names a page that there is; a list of the wrong length is refused and names none. -/
def InRange (pages : Nat) : Call → Prop
  | select page _ => page < pages
  | selectLast page => page < pages
  | restore _ => True

/-- The bank that a call asks for in a page of a window with so many pages and banks. -/
def asks? (pages banks page : Nat) : Call → Option Nat
  | select named bank => if named = page then some bank else none
  | selectLast named => if named = page then some (banks - 1) else none
  | restore list => if list.length = pages then list[page]? else none

/-- The last bank that calls ask for in a page, or zero, which every page shows at first. -/
def asked (pages banks page : Nat) (calls : List Call) : Nat :=
  (calls.filterMap (asks? pages banks page)).getLast?.getD 0

end Call

def call (w : Window) : Call → Except Fault Window
  | .select page bank => w.select page bank
  | .selectLast page => w.selectFromEnd page 0
  | .restore banks => return (w.restore? banks).getD w

def callAll (w : Window) (calls : List Call) : Except Fault Window := calls.foldlM call w

variable {w v : Window} {size start pageSize pages page bank : Nat}

theorem bank_select (h : w.select page bank = .ok v) (other : Nat) :
    v.bank other = if page = other then .ok (bank &&& w.bankMask) else w.bank other := by
  by_cases hother : page = other
  · subst hother
    rw [if_pos rfl, bank_of_select (select_again h), select_bankMask h]
  · obtain ⟨_, rfl⟩ := select_eq_ok_iff.mp h
    rw [if_neg hother, Window.bank, Window.bank, List.getElem?_set_ne hother, pageCount, pageCount,
      List.length_set]

theorem bank_withPages {banks : List Nat} (hpage : page < banks.length) (count : Nat) :
    { w with pages := banks.map (· % count) }.bank page =
      ((banks[page]?).map fun bank => .ok (bank % count)).getD (w.bank page) := by
  have hmapped : page < (banks.map (· % count)).length := by
    rw [List.length_map]
    exact hpage
  rw [Window.bank, List.getElem?_eq_getElem hmapped, List.getElem?_eq_getElem hpage,
    List.getElem_map]
  rfl

namespace IsCut

theorem exists_call_select (h : w.IsCut size start pageSize pages) (hpage : page < pages)
    (bank : Nat) :
    ∃ v, w.select page bank = .ok v ∧ v.IsCut size start pageSize pages ∧
      ∀ other, v.bank other =
        if page = other then .ok (bank % w.bankCount) else w.bank other := by
  obtain ⟨v, hv⟩ := h.exists_select hpage bank
  refine ⟨v, hv, h.select hv, ?_⟩
  intro other
  rw [bank_select hv, h.and_bankMask]

/-- A call gives a page the bank that it asks for there, if any. -/
theorem exists_call (h : w.IsCut size start pageSize pages) {c : Call} (hc : c.InRange pages) :
    ∃ v, w.call c = .ok v ∧ v.IsCut size start pageSize pages ∧ ∀ page < pages,
      v.bank page = ((c.asks? pages w.bankCount page).map fun bank =>
        .ok (bank % w.bankCount)).getD (w.bank page) := by
  cases c with
  | select named bank =>
    obtain ⟨v, hv, hcut, hbank⟩ := h.exists_call_select hc bank
    refine ⟨v, hv, hcut, ?_⟩
    intro page _
    rw [hbank, Call.asks?]
    split <;> rfl
  | selectLast named =>
    obtain ⟨v, hv, hcut, hbank⟩ := h.exists_call_select hc w.lastBank
    refine ⟨v, hv, hcut, ?_⟩
    intro page _
    rw [hbank, Call.asks?, show w.bankCount - 1 = w.lastBank from Nat.add_sub_cancel ..]
    split <;> rfl
  | restore banks =>
    by_cases hlength : banks.length = pages
    · refine ⟨_, ?_, h.reduce hlength, ?_⟩
      · rw [call, h.restore?_eq, if_pos hlength]
        rfl
      · intro page hpage
        rw [bank_withPages (hlength.symm ▸ hpage), Call.asks?, if_pos hlength]
    · refine ⟨w, ?_, h, ?_⟩
      · rw [call, h.restore?_eq, if_neg hlength]
        rfl
      · intro page _
        rw [Call.asks?, if_neg hlength]
        rfl

/-- Of several calls, the last one that asks for a bank in a page decides. -/
theorem exists_callAll (h : w.IsCut size start pageSize pages) {calls : List Call}
    (hcalls : ∀ c ∈ calls, c.InRange pages) :
    ∃ v, w.callAll calls = .ok v ∧ v.IsCut size start pageSize pages ∧ ∀ page < pages,
      v.bank page = (((calls.filterMap (Call.asks? pages w.bankCount page)).getLast?).map
        fun bank => .ok (bank % w.bankCount)).getD (w.bank page) := by
  induction calls generalizing w with
  | nil => exact ⟨w, rfl, h, fun _ _ => rfl⟩
  | cons c rest ih =>
    obtain ⟨next, hnext, hcut, hbank⟩ := h.exists_call (hcalls c (List.mem_cons_self ..))
    obtain ⟨v, hv, hcut', hbank'⟩ := ih hcut fun d hd => hcalls d (List.mem_cons_of_mem c hd)
    refine ⟨v, Fault.bind_eq_ok_iff.mpr ⟨next, hnext, hv⟩, hcut', ?_⟩
    intro page hpage
    have hcount : next.bankCount = w.bankCount := hcut.bankCount_eq.trans h.bankCount_eq.symm
    rw [hbank' page hpage, hbank page hpage, hcount, List.filterMap_cons]
    cases Call.asks? pages w.bankCount page c with
    | none => rfl
    | some bank =>
      rw [List.getLast?_cons]
      cases (rest.filterMap (Call.asks? pages w.bankCount page)).getLast? <;> rfl

end IsCut

theorem bank_create (h : create size start pageSize pages = .ok w) (hpage : page < pages) :
    w.bank page = .ok 0 := by
  obtain ⟨_, _, _, rfl⟩ := create_eq_ok_iff.mp h
  rw [Window.bank, List.getElem?_replicate_of_lt hpage]

/-- What a new window shows after calls. -/
theorem exists_callAll_create (h : create size start pageSize pages = .ok w) {calls : List Call}
    (hcalls : ∀ c ∈ calls, c.InRange pages) :
    ∃ v, w.callAll calls = .ok v ∧ v.IsCut size start pageSize pages ∧ ∀ page < pages,
      v.bank page = .ok (Call.asked pages w.bankCount page calls % w.bankCount) := by
  obtain ⟨v, hv, hcut, hbank⟩ := (create_isCut h).exists_callAll hcalls
  refine ⟨v, hv, hcut, ?_⟩
  intro page hpage
  rw [hbank page hpage, bank_create h hpage, Call.asked]
  cases (calls.filterMap (Call.asks? pages w.bankCount page)).getLast? with
  | none => exact congrArg Except.ok (Nat.zero_mod _).symm
  | some bank => rfl

namespace IsCut

/-! ## Offsets -/

/-- A buffer smaller than a page repeats in it, and a larger one is a whole number of pages. -/
theorem place_eq (h : w.IsCut size start pageSize pages) (hsize : 0 < size)
    (hbank : bank < w.bankCount) (addr : Nat) :
    bank * pageSize + addr % min pageSize size = (bank * pageSize + addr % pageSize) % size := by
  have hlt := h.offset_lt hsize hbank addr
  rcases Nat.lt_or_ge size pageSize with hsmall | hlarge
  · have hzero : bank = 0 := by
      rw [h.bankCount_eq, Nat.div_eq_of_lt hsmall] at hbank
      omega
    rw [hzero, Nat.zero_mul, Nat.zero_add, Nat.zero_add, h.mod_page hsize]
  · rw [Nat.min_eq_left hlarge] at hlt ⊢
    rw [Nat.mod_eq_of_lt hlt]

theorem mul_pageSize_le (h : w.IsCut size start pageSize pages) (hbank : bank < w.bankCount) :
    bank * pageSize ≤ size := by
  rw [h.bankCount_eq] at hbank
  have hle : bank ≤ size / pageSize := by
    have hnonneg := Nat.zero_le (size / pageSize)
    omega
  exact Nat.le_trans (Nat.mul_le_mul_right pageSize hle) (Nat.div_mul_le_self size pageSize)

end IsCut

/-! ## Words of 64 bits -/

/-- The first byte of a bank, as a word of 64 bits. -/
def baseWord (w : Window) (bank : Nat) : UInt64 := .ofNat bank <<< .ofNat w.shift

/-- The page of an address, reckoned in words of 64 bits. -/
def pageWord (w : Window) (addr : Nat) : UInt64 :=
  (.ofNat addr - .ofNat w.start) >>> .ofNat w.shift

/-- The offset of an address in a bank, reckoned in words of 64 bits. -/
def offsetWord (w : Window) (bank addr : Nat) : UInt64 :=
  w.baseWord bank ||| (.ofNat addr &&& .ofNat w.offsetMask)

theorem toNat_word {n : Nat} (h : n < 2 ^ 64) : (UInt64.ofNat n).toNat = n :=
  UInt64.toNat_ofNat_of_lt' h

namespace IsCut

variable (h : w.IsCut size start pageSize pages)

include h

theorem toNat_shift (hpage : pageSize < 2 ^ 64) :
    w.shift < 64 ∧ (UInt64.ofNat w.shift).toNat % 64 = w.shift ∧ 2 ^ w.shift = pageSize := by
  have hpow : 2 ^ w.shift = pageSize := by
    rw [h.shift_eq, ← Nat.one_shiftLeft]
    exact h.isPowerOfTwo_pageSize
  have hlt : w.shift < 64 := (Nat.pow_lt_pow_iff_right (by omega)).mp (hpow ▸ hpage)
  refine ⟨hlt, ?_, hpow⟩
  rw [toNat_word (by omega)]
  exact Nat.mod_eq_of_lt hlt

/-- No bit of a bank number is shifted out of the word. -/
theorem toNat_baseWord (hsize : size < 2 ^ 64) (hpage : pageSize < 2 ^ 64)
    (hbank : bank < w.bankCount) :
    (w.baseWord bank).toNat = bank * pageSize ∧
      (w.baseWord bank >>> .ofNat w.shift).toNat = bank := by
  obtain ⟨_, hshift, hpow⟩ := h.toNat_shift hpage
  have hbase := h.mul_pageSize_le hbank
  have hle := Nat.le_mul_of_pos_right bank h.isPowerOfTwo_pageSize.pos
  have hword : (w.baseWord bank).toNat = bank * pageSize := by
    rw [baseWord, UInt64.toNat_shiftLeft, hshift, toNat_word (by omega), Nat.shiftLeft_eq, hpow]
    exact Nat.mod_eq_of_lt (by omega)
  refine ⟨hword, ?_⟩
  rw [UInt64.toNat_shiftRight, hshift, hword, Nat.shiftRight_eq_div_pow, hpow]
  exact Nat.mul_div_cancel _ h.isPowerOfTwo_pageSize.pos

theorem toNat_pageWord (hpage : pageSize < 2 ^ 64) {addr : Nat} (hstart : start ≤ addr)
    (haddr : addr < 2 ^ 64) : (w.pageWord addr).toNat = (addr - start) / pageSize := by
  obtain ⟨_, hshift, hpow⟩ := h.toNat_shift hpage
  have hdiff : (UInt64.ofNat addr - UInt64.ofNat start).toNat = addr - start := by
    rw [UInt64.toNat_sub_of_le, toNat_word haddr, toNat_word (by omega)]
    rw [UInt64.le_iff_toNat_le, toNat_word haddr, toNat_word (by omega)]
    exact hstart
  rw [pageWord, h.start_eq, UInt64.toNat_shiftRight, hshift, hdiff, Nat.shiftRight_eq_div_pow, hpow]

theorem toNat_offsetWord (hsize : 0 < size) (hsize' : size < 2 ^ 64) (hpage : pageSize < 2 ^ 64)
    (hbank : bank < w.bankCount) {addr : Nat} (haddr : addr < 2 ^ 64) :
    (w.offsetWord bank addr).toNat = bank * pageSize + addr % min pageSize size := by
  have hmask : w.offsetMask < 2 ^ 64 := by
    rw [h.offsetMask_eq]
    omega
  have hlt := h.mod_min_lt hsize addr
  rw [offsetWord, UInt64.toNat_or, UInt64.toNat_and, (h.toNat_baseWord hsize' hpage hbank).1,
    toNat_word haddr, toNat_word hmask, h.and_offsetMask hsize,
    ← h.isPowerOfTwo_pageSize.shiftLeft_or hlt, Nat.shiftLeft_eq, ← h.shift_eq,
    (h.toNat_shift hpage).2.2]

end IsCut

/-- A window shows in each page the last bank that was asked for there, modulo the number of banks,
and puts an address where multiplication and remainder put it. Where there is a buffer the offset is
one of its own. Nothing is lost to words of 64 bits, neither from a bank number that is shifted to
its first byte and back nor from an offset. A list of banks of the wrong length is refused and the
list of the banks shown is taken; neither changes anything. -/
theorem windows_follow_arithmetic {size pageSize : Nat} (hsize : size = 0 ∨ IsPowerOfTwo size)
    (hpage : IsPowerOfTwo pageSize) (hsize' : size < 2 ^ 64) (hpage' : pageSize < 2 ^ 64)
    (start pages : Nat) (hstop : start + pages * pageSize ≤ 2 ^ 64) :
    (pages < pageLimit ↔ ∃ w, create size start pageSize pages = .ok w) ∧
    ∀ w, create size start pageSize pages = .ok w → ∀ calls : List Call,
      (∀ c ∈ calls, c.InRange pages) → ∃ v, w.callAll calls = .ok v ∧
        (∀ page < pages, ∃ b, v.bank page = .ok b ∧
          b = Call.asked pages (max (size / pageSize) 1) page calls % max (size / pageSize) 1 ∧
          (v.baseWord b).toNat = b * pageSize ∧ (v.baseWord b >>> .ofNat v.shift).toNat = b) ∧
        (0 < size → ∀ addr, start ≤ addr → addr < start + pages * pageSize →
          ∃ b, v.bank ((addr - start) / pageSize) = .ok b ∧
            v.resolve addr = .ok ((b * pageSize + addr % pageSize) % size) ∧
            (b * pageSize + addr % pageSize) % size < size ∧
            (v.pageWord addr).toNat = (addr - start) / pageSize ∧
            (v.offsetWord b addr).toNat = (b * pageSize + addr % pageSize) % size) ∧
        (∀ banks : List Nat, banks.length ≠ pages →
          v.restore? banks = none ∧ v.call (.restore banks) = .ok v) ∧
        v.restore? v.pages = some v := by
  constructor
  · constructor
    · intro hpages
      exact exists_create hpage hsize hpages start
    · rintro ⟨w, hw⟩
      exact (create_eq_ok_iff.mp hw).2.2.1
  · intro w hw calls hcalls
    have hcut := create_isCut hw
    obtain ⟨v, hv, hcut', hbank⟩ := exists_callAll_create hw hcalls
    refine ⟨v, hv, ?_, ?_, ?_, ?_⟩
    · intro page hin
      obtain ⟨b, hlt, hb⟩ := hcut'.exists_bank hin
      have hasked := Except.ok.inj (hb.symm.trans (hbank page hin))
      rw [hcut.bankCount_eq] at hasked
      exact ⟨b, hb, hasked, hcut'.toNat_baseWord hsize' hpage' hlt⟩
    · intro hpos addr hstart haddr
      have hin : (addr - start) / pageSize < pages :=
        (Nat.div_lt_iff_lt_mul hpage.pos).mpr (by omega)
      obtain ⟨b, hlt, hb⟩ := hcut'.exists_bank hin
      have hplace := hcut'.place_eq hpos hlt addr
      refine ⟨b, hb, ?_, Nat.mod_lt _ hpos, hcut'.toNat_pageWord hpage' hstart (by omega), ?_⟩
      · rw [hcut'.resolve_eq hpos hstart hb, hplace]
      · rw [hcut'.toNat_offsetWord hpos hsize' hpage' hlt (by omega), hplace]
    · intro banks hlength
      have hnone : v.restore? banks = none := by
        rw [hcut'.restore?_eq, if_neg hlength]
      refine ⟨hnone, ?_⟩
      rw [call, hnone]
      rfl
    · have hlength : v.pages.length = pages := hcut'.pageCount_eq
      rw [hcut'.restore?_eq, if_pos hlength, hcut'.reduce_pages hcut']

/-- Two banks of 2 ^ 62 bytes in three pages that reach the end of the address space. The first list
of banks is too short, the second is taken, and then the highest number is asked for. -/
theorem windows_follow_arithmetic_topmost :
    ∃ w v, create (2 ^ 63) (2 ^ 62) (2 ^ 62) 3 = .ok w ∧
      w.callAll [.selectLast 2, .restore [1], .restore [6, 4, 9], .select 1 (2 ^ 64 - 1)] = .ok v ∧
      v.bank 0 = .ok 0 ∧ v.bank 1 = .ok 1 ∧ v.bank 2 = .ok 1 ∧
      v.resolve (2 ^ 63 + 5) = .ok (2 ^ 62 + 5) := by
  have hbig : IsPowerOfTwo (2 ^ 63) := by decide
  have hpage : IsPowerOfTwo (2 ^ 62) := by decide
  obtain ⟨hcreate, hcalls⟩ := windows_follow_arithmetic (.inr hbig) hpage (by decide) (by decide)
    (2 ^ 62) 3 (by decide)
  obtain ⟨w, hw⟩ := hcreate.mp (by decide)
  obtain ⟨v, hv, hbanks, hresolve, _⟩ := hcalls w hw
    [.selectLast 2, .restore [1], .restore [6, 4, 9], .select 1 (2 ^ 64 - 1)]
    (by simp [Call.InRange])
  obtain ⟨_, hb₀, rfl, _⟩ := hbanks 0 (by decide)
  obtain ⟨_, hb₁, rfl, _⟩ := hbanks 1 (by decide)
  obtain ⟨_, hb₂, rfl, _⟩ := hbanks 2 (by decide)
  obtain ⟨_, hb, hoffset, _⟩ := hresolve (by decide) (2 ^ 63 + 5) (by decide) (by decide)
  obtain rfl := Except.ok.inj (hb₁.symm.trans hb)
  exact ⟨w, v, hw, hv, hb₀, hb₁, hb₂, hoffset⟩

end Window

end GamePak
