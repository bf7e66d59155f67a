import GamePak.Banks

/-!
Windows as they are cut. Whatever is selected in a window, its geometry stays that of the call
of `create` that cut it, and each page shows a bank that exists. The two facts together put every
address of the window inside the buffer behind it, and let a window be put back from the banks
of its pages alone.
-/

namespace GamePak

theorem IsPowerOfTwo.max_div_one {size pageSize : Nat}
    (hsize : size = 0 ∨ IsPowerOfTwo size) (hpage : IsPowerOfTwo pageSize) :
    IsPowerOfTwo (max (size / pageSize) 1) := by
  obtain ⟨k, rfl⟩ := isPowerOfTwo_iff.mp hpage
  rcases hsize with rfl | hsize
  · simp only [Nat.zero_div, Nat.zero_max]
    exact isPowerOfTwo_one_shiftLeft 0
  · obtain ⟨n, rfl⟩ := isPowerOfTwo_iff.mp hsize
    simp only [Nat.one_shiftLeft]
    by_cases hkn : k ≤ n
    · rw [Nat.pow_div hkn (by omega), Nat.max_eq_left (Nat.one_le_two_pow), ← Nat.one_shiftLeft]
      exact isPowerOfTwo_one_shiftLeft (n - k)
    · have hlt : 1 <<< n < 1 <<< k := by
        simp only [Nat.one_shiftLeft]
        exact Nat.pow_lt_pow_right (by omega) (by omega)
      simp only [Nat.one_shiftLeft] at hlt
      rw [Nat.div_eq_of_lt hlt]
      exact isPowerOfTwo_one_shiftLeft 0

theorem IsPowerOfTwo.and_sub_one {n : Nat} (h : IsPowerOfTwo n) (a : Nat) :
    a &&& (n - 1) = a % n := by
  obtain ⟨k, rfl⟩ := isPowerOfTwo_iff.mp h
  simp only [Nat.one_shiftLeft]
  exact Nat.and_two_pow_sub_one_eq_mod a k

/-- A multiple of a power of two, joined bitwise with something smaller than the power. -/
theorem IsPowerOfTwo.shiftLeft_or {n a b : Nat} (h : IsPowerOfTwo n) (hb : b < n) :
    (a <<< n.log2) ||| b = a * n + b := by
  obtain ⟨k, rfl⟩ := isPowerOfTwo_iff.mp h
  simp only [Nat.one_shiftLeft, Nat.log2_two_pow] at hb ⊢
  rw [Nat.shiftLeft_eq, Nat.mul_comm a]
  exact (Nat.two_pow_add_eq_or_of_lt hb a).symm

theorem IsPowerOfTwo.shiftRight_log2 {n : Nat} (h : IsPowerOfTwo n) (a : Nat) :
    a >>> n.log2 = a / n := by
  obtain ⟨k, rfl⟩ := isPowerOfTwo_iff.mp h
  simp only [Nat.one_shiftLeft, Nat.log2_two_pow, Nat.shiftRight_eq_div_pow]

theorem IsPowerOfTwo.min {m n : Nat} (hm : IsPowerOfTwo m) (hn : IsPowerOfTwo n) :
    IsPowerOfTwo (min m n) := by
  rcases Nat.le_total m n with h | h
  · rwa [Nat.min_eq_left h]
  · rwa [Nat.min_eq_right h]

theorem IsPowerOfTwo.dvd_of_le {m n : Nat} (hm : IsPowerOfTwo m) (hn : IsPowerOfTwo n)
    (h : m ≤ n) : m ∣ n := by
  obtain ⟨j, rfl⟩ := isPowerOfTwo_iff.mp hm
  obtain ⟨k, rfl⟩ := isPowerOfTwo_iff.mp hn
  simp only [Nat.one_shiftLeft] at h ⊢
  exact Nat.pow_dvd_pow 2 ((Nat.pow_le_pow_iff_right (by omega)).mp h)

theorem IsPowerOfTwo.two_mul_le {m n : Nat} (hm : IsPowerOfTwo m) (hn : IsPowerOfTwo n)
    (h : m < n) : 2 * m ≤ n := by
  obtain ⟨times, rfl⟩ := hm.dvd_of_le hn (Nat.le_of_lt h)
  have htimes : 1 < times := Nat.lt_of_mul_lt_mul_left (by rwa [Nat.mul_one])
  rw [Nat.mul_comm 2]
  exact Nat.mul_le_mul_left m htimes

namespace Window

/-- The window before anything was selected in it. -/
def cleared (w : Window) : Window := { w with pages := List.replicate w.pageCount 0 }

theorem create_eq_ok_iff {size start pageSize pages : Nat} {w : Window} :
    create size start pageSize pages = .ok w ↔
      IsPowerOfTwo pageSize ∧ (size = 0 ∨ IsPowerOfTwo size) ∧ pages < pageLimit ∧
      w = {
        size
        start
        shift := pageSize.log2
        bankMask := max (size / pageSize) 1 - 1
        offsetMask := min pageSize size - 1
        pages := List.replicate pages 0 } := by
  unfold create
  by_cases hpage : IsPowerOfTwo pageSize
  · rw [if_neg (not_not_intro hpage)]
    by_cases hsize : size ≠ 0 ∧ ¬ IsPowerOfTwo size
    · rw [if_pos hsize]
      constructor
      · intro h
        cases h
      · rintro ⟨_, hgood, _⟩
        rcases hgood with hzero | hpow
        · exact absurd hzero hsize.1
        · exact absurd hpow hsize.2
    · rw [if_neg hsize]
      have hgood : size = 0 ∨ IsPowerOfTwo size := by
        by_cases hzero : size = 0
        · exact Or.inl hzero
        · exact Or.inr (Decidable.not_not.mp fun hpow => hsize ⟨hzero, hpow⟩)
      by_cases hpages : pageLimit ≤ pages
      · rw [if_pos hpages]
        constructor
        · intro h
          cases h
        · rintro ⟨_, _, hlt, _⟩
          omega
      · rw [if_neg hpages]
        constructor
        · intro h
          exact ⟨hpage, hgood, by omega, (Except.ok.inj h).symm⟩
        · rintro ⟨_, _, _, rfl⟩
          rfl
  · rw [if_pos hpage]
    constructor
    · intro h
      cases h
    · rintro ⟨hgood, _⟩
      exact absurd hgood hpage

theorem exists_create {size pageSize pages : Nat} (hpage : IsPowerOfTwo pageSize)
    (hsize : size = 0 ∨ IsPowerOfTwo size) (hpages : pages < pageLimit) (start : Nat) :
    ∃ w, create size start pageSize pages = .ok w :=
  ⟨_, create_eq_ok_iff.mpr ⟨hpage, hsize, hpages, rfl⟩⟩

/-- The window was cut with these parameters, and every page of it shows a bank that exists. -/
structure IsCut (w : Window) (size start pageSize pages : Nat) : Prop where
  created : create size start pageSize pages = .ok w.cleared
  bank_lt : ∀ b ∈ w.pages, b < w.bankCount

section

variable {w v : Window} {size start pageSize pages : Nat}

theorem create_isCut (h : create size start pageSize pages = .ok w) :
    w.IsCut size start pageSize pages := by
  obtain ⟨_, _, _, rfl⟩ := create_eq_ok_iff.mp h
  constructor
  · rw [h]
    simp [cleared, pageCount]
  · intro b hb
    have hzero : b = 0 := List.eq_of_mem_replicate hb
    rw [hzero]
    exact Nat.succ_pos _

/-- Bank numbers in range are not changed by reducing them. -/
theorem map_mod_eq {banks : List Nat} {count : Nat} (h : ∀ b ∈ banks, b < count) :
    banks.map (· % count) = banks := by
  have hsame : ∀ b ∈ banks, b % count = b := fun b hb => Nat.mod_eq_of_lt (h b hb)
  exact (List.map_congr_left hsame).trans (List.map_id _)

namespace IsCut

/-! ## What the parameters say -/

theorem isPowerOfTwo_pageSize (h : w.IsCut size start pageSize pages) :
    IsPowerOfTwo pageSize := (create_eq_ok_iff.mp h.created).1

theorem size_zero_or (h : w.IsCut size start pageSize pages) :
    size = 0 ∨ IsPowerOfTwo size := (create_eq_ok_iff.mp h.created).2.1

theorem cleared_eq (h : w.IsCut size start pageSize pages) :
    w.cleared = {
      size
      start
      shift := pageSize.log2
      bankMask := max (size / pageSize) 1 - 1
      offsetMask := min pageSize size - 1
      pages := List.replicate pages 0 } := (create_eq_ok_iff.mp h.created).2.2.2

theorem size_eq (h : w.IsCut size start pageSize pages) : w.size = size :=
  congrArg Window.size h.cleared_eq

theorem start_eq (h : w.IsCut size start pageSize pages) : w.start = start :=
  congrArg Window.start h.cleared_eq

theorem shift_eq (h : w.IsCut size start pageSize pages) : w.shift = pageSize.log2 :=
  congrArg Window.shift h.cleared_eq

theorem bankCount_eq (h : w.IsCut size start pageSize pages) :
    w.bankCount = max (size / pageSize) 1 := by
  have hmask : w.bankMask = max (size / pageSize) 1 - 1 := congrArg Window.bankMask h.cleared_eq
  unfold bankCount
  omega

/-- A bank that begins inside the buffer exists. -/
theorem lt_bankCount (h : w.IsCut size start pageSize pages) {bank : Nat}
    (hbank : bank * pageSize < size) : bank < w.bankCount := by
  have hpow : IsPowerOfTwo size := h.size_zero_or.resolve_left (by omega)
  rw [h.bankCount_eq]
  rcases Nat.lt_or_ge size pageSize with hlt | hle
  · rcases Nat.eq_zero_or_pos bank with hzero | hone
    · omega
    · have hmul := Nat.mul_le_mul_right pageSize hone
      omega
  · obtain ⟨banks, rfl⟩ := h.isPowerOfTwo_pageSize.dvd_of_le hpow hle
    rw [Nat.mul_comm] at hbank
    have hlt := Nat.lt_of_mul_lt_mul_left hbank
    rw [Nat.mul_div_cancel_left _ h.isPowerOfTwo_pageSize.pos]
    omega

theorem offsetMask_eq (h : w.IsCut size start pageSize pages) :
    w.offsetMask = min pageSize size - 1 := congrArg Window.offsetMask h.cleared_eq

theorem pageCount_eq (h : w.IsCut size start pageSize pages) : w.pageCount = pages := by
  have hpages := congrArg (fun v => v.pages.length) h.cleared_eq
  simpa only [cleared, List.length_replicate] using hpages

/-- Two windows cut alike differ in their selections only. -/
theorem eq_of_pages (hw : w.IsCut size start pageSize pages)
    (hv : v.IsCut size start pageSize pages) (hpages : w.pages = v.pages) : w = v := by
  have hclear : w.cleared = v.cleared := hw.cleared_eq.trans hv.cleared_eq.symm
  cases w
  cases v
  simp only [cleared, mk.injEq] at hclear hpages ⊢
  exact ⟨hclear.1, hclear.2.1, hclear.2.2.1, hclear.2.2.2.1, hclear.2.2.2.2.1, hpages⟩

/-- Masking a bank number is taking it modulo the number of banks. -/
theorem and_bankMask (h : w.IsCut size start pageSize pages) (b : Nat) :
    b &&& w.bankMask = b % w.bankCount := by
  have hpow : IsPowerOfTwo w.bankCount := by
    rw [h.bankCount_eq]
    exact IsPowerOfTwo.max_div_one h.size_zero_or h.isPowerOfTwo_pageSize
  simpa only [bankCount, Nat.add_sub_cancel] using hpow.and_sub_one b

/-! ## Selecting -/

/-- Pages may show other banks that exist, as long as there are as many of them. -/
theorem withPages (h : w.IsCut size start pageSize pages) {banks : List Nat}
    (hlength : banks.length = pages) (hbanks : ∀ b ∈ banks, b < w.bankCount) :
    { w with pages := banks }.IsCut size start pageSize pages where
  created := by
    have hclear : { w with pages := banks }.cleared = w.cleared := by
      simp only [cleared, pageCount, hlength, ← h.pageCount_eq]
    rw [hclear]
    exact h.created
  bank_lt := hbanks

/-- Any numbers will do for the pages, modulo the number of banks. -/
theorem reduce (h : w.IsCut size start pageSize pages) {banks : List Nat}
    (hlength : banks.length = pages) :
    { w with pages := banks.map (· % w.bankCount) }.IsCut size start pageSize pages := by
  apply h.withPages
  · rw [List.length_map, hlength]
  · intro b hb
    obtain ⟨number, _, rfl⟩ := List.mem_map.mp hb
    exact Nat.mod_lt number (Nat.succ_pos _)

theorem select (h : w.IsCut size start pageSize pages) {page bank : Nat}
    (hv : w.select page bank = .ok v) : v.IsCut size start pageSize pages := by
  unfold Window.select at hv
  split at hv
  · cases hv
    apply h.withPages
    · rw [List.length_set]
      exact h.pageCount_eq
    · intro b hb
      rcases List.mem_or_eq_of_mem_set hb with hold | rfl
      · exact h.bank_lt b hold
      · exact Nat.lt_succ_of_le Nat.and_le_right
  · cases hv

theorem exists_select (h : w.IsCut size start pageSize pages) {page : Nat} (hpage : page < pages)
    (bank : Nat) : ∃ v, w.select page bank = .ok v := by
  unfold Window.select
  rw [h.pageCount_eq, if_pos hpage]
  exact ⟨_, rfl⟩

theorem selectBefore (h : w.IsCut size start pageSize pages) {page back : Nat}
    (hv : w.selectBefore page back = .ok v) : v.IsCut size start pageSize pages := by
  unfold Window.selectBefore at hv
  split at hv
  · exact h.select hv
  · cases hv

theorem exists_selectBefore (h : w.IsCut size start pageSize pages) {page back : Nat}
    (hpage : page < pages) (hback : back < size / pageSize) :
    ∃ v, w.selectBefore page back = .ok v := by
  have hlast : back ≤ w.lastBank := by
    have hcount := h.bankCount_eq
    unfold bankCount at hcount
    unfold lastBank
    omega
  unfold Window.selectBefore
  rw [if_pos hlast]
  exact h.exists_select hpage _

theorem arrange (h : w.IsCut size start pageSize pages) {m : Mirroring}
    (hv : w.arrange m = .ok v) : v.IsCut size start pageSize pages := by
  simp only [Window.arrange, List.foldlM_cons, List.foldlM_nil, Fault.bind_eq_ok_iff] at hv
  obtain ⟨w₀, h₀, w₁, h₁, w₂, h₂, w₃, h₃, heq⟩ := hv
  cases heq
  exact (((h.select h₀).select h₁).select h₂).select h₃

theorem exists_arrange (h : w.IsCut size start pageSize 4) (m : Mirroring) :
    ∃ v, w.arrange m = .ok v := by
  obtain ⟨w₀, h₀⟩ := h.exists_select (show 0 < 4 by omega) (m.page 0)
  have c₀ := h.select h₀
  obtain ⟨w₁, h₁⟩ := c₀.exists_select (show 1 < 4 by omega) (m.page 1)
  have c₁ := c₀.select h₁
  obtain ⟨w₂, h₂⟩ := c₁.exists_select (show 2 < 4 by omega) (m.page 2)
  have c₂ := c₁.select h₂
  obtain ⟨w₃, h₃⟩ := c₂.exists_select (show 3 < 4 by omega) (m.page 3)
  refine ⟨w₃, ?_⟩
  simp only [Window.arrange, List.foldlM_cons, List.foldlM_nil, Fault.bind_eq_ok_iff]
  exact ⟨w₀, h₀, w₁, h₁, w₂, h₂, w₃, h₃, rfl⟩

/-! ## Putting all pages back -/

theorem restore?_eq (h : w.IsCut size start pageSize pages) {banks : List Nat} :
    w.restore? banks =
      if banks.length = pages then
        some { w with pages := banks.map (· % w.bankCount) }
      else none := by
  unfold Window.restore?
  simp only [h.pageCount_eq, h.and_bankMask]

/-- What a window showed before does not matter to putting its pages back. -/
theorem restore?_congr (hw : w.IsCut size start pageSize pages)
    (hv : v.IsCut size start pageSize pages) (banks : List Nat) :
    w.restore? banks = v.restore? banks := by
  have hcleared : ∀ u : Window, u.cleared.restore? banks = u.restore? banks := by
    intro u
    have hcount : u.cleared.pageCount = u.pageCount := List.length_replicate
    unfold Window.restore?
    rw [hcount]
    rfl
  rw [← hcleared w, ← hcleared v, hw.cleared_eq, hv.cleared_eq]

/-- The banks of the pages are all that has to be known of a window to put it back. -/
theorem reduce_pages (hw : w.IsCut size start pageSize pages)
    (hv : v.IsCut size start pageSize pages) :
    { w with pages := v.pages.map (· % w.bankCount) } = v := by
  have hmod : v.pages.map (· % w.bankCount) = v.pages := by
    rw [hw.bankCount_eq, ← hv.bankCount_eq]
    exact map_mod_eq hv.bank_lt
  exact (hw.reduce hv.pageCount_eq).eq_of_pages hv hmod

/-! ## Resolving -/

/-- Masking an address is taking it modulo the part of a page that the buffer fills. -/
theorem and_offsetMask (h : w.IsCut size start pageSize pages) (hsize : 0 < size) (addr : Nat) :
    addr &&& w.offsetMask = addr % min pageSize size := by
  have hpow : IsPowerOfTwo size := h.size_zero_or.resolve_left (by omega)
  rw [h.offsetMask_eq]
  exact (h.isPowerOfTwo_pageSize.min hpow).and_sub_one addr

theorem mod_min_lt (h : w.IsCut size start pageSize pages) (hsize : 0 < size) (addr : Nat) :
    addr % min pageSize size < pageSize := by
  have hpos := h.isPowerOfTwo_pageSize.pos
  have hmod := Nat.mod_lt addr (show 0 < min pageSize size by omega)
  omega

/-- An offset is a bank and a place in it; a buffer smaller than a page repeats. -/
theorem offset_eq (h : w.IsCut size start pageSize pages) (hsize : 0 < size) {page b : Nat}
    (hb : w.bank page = .ok b) (addr : Nat) :
    w.offset page addr = .ok (b * pageSize + addr % min pageSize size) := by
  unfold offset
  rw [hb]
  change Except.ok ((b <<< w.shift) ||| (addr &&& w.offsetMask)) = _
  rw [h.and_offsetMask hsize, h.shift_eq,
    h.isPowerOfTwo_pageSize.shiftLeft_or (h.mod_min_lt hsize addr)]

theorem offset_lt (h : w.IsCut size start pageSize pages) (hsize : 0 < size) {b : Nat}
    (hb : b < w.bankCount) (addr : Nat) : b * pageSize + addr % min pageSize size < size := by
  have hpos := h.isPowerOfTwo_pageSize.pos
  have hcount := h.bankCount_eq
  have hmod := Nat.mod_lt addr (show 0 < min pageSize size by omega)
  by_cases hle : pageSize ≤ size
  · have hbanks : b + 1 ≤ size / pageSize := by
      have hone := Nat.div_pos hle hpos
      omega
    have hfit : (b + 1) * pageSize ≤ size :=
      Nat.le_trans (Nat.mul_le_mul_right pageSize hbanks) (Nat.div_mul_le_self size pageSize)
    rw [Nat.succ_mul] at hfit
    omega
  · have hzero : b = 0 := by
      have hdiv := Nat.div_eq_of_lt (show size < pageSize by omega)
      omega
    subst hzero
    omega

/-- A buffer smaller than a page repeats in it. -/
theorem mod_page (h : w.IsCut size start pageSize pages) (hsize : 0 < size) (addr : Nat) :
    addr % min pageSize size = addr % pageSize % size := by
  rcases Nat.lt_or_ge size pageSize with hsmall | hlarge
  · have hpow : IsPowerOfTwo size := h.size_zero_or.resolve_left (by omega)
    have hdvd := hpow.dvd_of_le h.isPowerOfTwo_pageSize (Nat.le_of_lt hsmall)
    rw [Nat.min_eq_right (Nat.le_of_lt hsmall), Nat.mod_mod_of_dvd _ hdvd]
  · have hlt := Nat.mod_lt addr h.isPowerOfTwo_pageSize.pos
    rw [Nat.min_eq_left hlarge, Nat.mod_eq_of_lt (show addr % pageSize < size by omega)]

/-- An address of the window reaches the bank that its page shows. -/
theorem resolve_eq (h : w.IsCut size start pageSize pages) (hsize : 0 < size) {addr b : Nat}
    (hstart : start ≤ addr) (hb : w.bank ((addr - start) / pageSize) = .ok b) :
    w.resolve addr = .ok (b * pageSize + addr % min pageSize size) := by
  unfold resolve
  rw [h.start_eq, if_neg (by omega), h.shift_eq, h.isPowerOfTwo_pageSize.shiftRight_log2]
  exact h.offset_eq hsize hb addr

/-- The same, for an address given by page and offset in a window that starts at a multiple of the
page size. -/
theorem resolve_page (h : w.IsCut size start pageSize pages) (hsize : 0 < size)
    (hstart : pageSize ∣ start) {page offset b : Nat} (hb : w.bank page = .ok b)
    (hoffset : offset < pageSize) :
    w.resolve (start + page * pageSize + offset) =
      .ok (b * pageSize + offset % min pageSize size) := by
  have hpow : IsPowerOfTwo size := h.size_zero_or.resolve_left (by omega)
  have hpos := h.isPowerOfTwo_pageSize.pos
  have hpage : (start + page * pageSize + offset - start) / pageSize = page := by
    rw [show start + page * pageSize + offset - start = offset + page * pageSize by omega,
      Nat.add_mul_div_right _ _ hpos, Nat.div_eq_of_lt hoffset, Nat.zero_add]
  have hplace : (start + page * pageSize + offset) % min pageSize size =
      offset % min pageSize size := by
    have hmin := (h.isPowerOfTwo_pageSize.min hpow).dvd_of_le h.isPowerOfTwo_pageSize
      (Nat.min_le_left pageSize size)
    have hbase : min pageSize size ∣ start + page * pageSize :=
      Nat.dvd_add (Nat.dvd_trans hmin hstart)
        (Nat.dvd_trans hmin (Nat.dvd_mul_left pageSize page))
    rw [Nat.add_mod, Nat.mod_eq_zero_of_dvd hbase, Nat.zero_add, Nat.mod_mod]
  rw [← hplace]
  refine h.resolve_eq hsize (by omega) ?_
  rw [hpage]
  exact hb

theorem exists_bank (h : w.IsCut size start pageSize pages) {page : Nat} (hpage : page < pages) :
    ∃ b < w.bankCount, w.bank page = .ok b := by
  have hlt : page < w.pages.length := Nat.lt_of_lt_of_eq hpage h.pageCount_eq.symm
  refine ⟨w.pages[page], h.bank_lt _ (List.getElem_mem hlt), ?_⟩
  unfold bank
  rw [List.getElem?_eq_getElem hlt]

/-- Every address of the window reaches a byte of the buffer. -/
theorem exists_resolve (h : w.IsCut size start pageSize pages) (hsize : 0 < size) {addr : Nat}
    (hstart : start ≤ addr) (hstop : addr < start + pages * pageSize) :
    ∃ offset, w.resolve addr = .ok offset ∧ offset < size := by
  have hpage : (addr - start) / pageSize < pages :=
    (Nat.div_lt_iff_lt_mul h.isPowerOfTwo_pageSize.pos).mpr (by omega)
  obtain ⟨b, hb, hbank⟩ := h.exists_bank hpage
  exact ⟨_, h.resolve_eq hsize hstart hbank, h.offset_lt hsize hb addr⟩

/-- A buffer no larger than a page has a single bank. -/
theorem bank_of_le (h : w.IsCut size start pageSize pages) (hsize : size ≤ pageSize) {page : Nat}
    (hpage : page < pages) : w.bank page = .ok 0 := by
  obtain ⟨b, hb, hbank⟩ := h.exists_bank hpage
  have hpos := h.isPowerOfTwo_pageSize.pos
  have hdiv : size / pageSize ≤ 1 := Nat.div_le_of_le_mul (by omega)
  rw [h.bankCount_eq] at hb
  obtain rfl : b = 0 := by omega
  exact hbank

end IsCut

end

end Window

end GamePak
