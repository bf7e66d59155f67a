import GamePak.Proofs.Banks

/-!
Which selections stand. A selection takes hold of one slot: a page of the program window or of the
pattern window, the page of work RAM, or the arrangement of the nametables. It stands until the
slot is selected anew. Of a list of selections the last one of each slot stands afterwards, and
in a slot that the list does not name there stands what stood there before.
-/

namespace GamePak

namespace Window

variable {w v : Window} {page bank : Nat}

theorem select_eq_ok_iff :
    w.select page bank = .ok v ↔
      page < w.pageCount ∧ v = { w with pages := w.pages.set page (bank &&& w.bankMask) } := by
  unfold select
  split
  · rename_i hpage
    constructor
    · intro h
      exact ⟨hpage, (Except.ok.inj h).symm⟩
    · rintro ⟨_, rfl⟩
      rfl
  · rename_i hpage
    constructor
    · intro h
      cases h
    · rintro ⟨hlt, _⟩
      exact absurd hlt hpage

/-- Selecting does not change how many banks there are. -/
theorem select_bankMask (h : w.select page bank = .ok v) : v.bankMask = w.bankMask := by
  obtain ⟨_, rfl⟩ := select_eq_ok_iff.mp h
  rfl

theorem select_again (h : w.select page bank = .ok v) : v.select page bank = .ok v := by
  obtain ⟨hpage, rfl⟩ := select_eq_ok_iff.mp h
  refine select_eq_ok_iff.mpr ⟨?_, ?_⟩
  · simpa only [pageCount, List.length_set] using hpage
  · simp only [List.set_set]

/-- A page that showed a bank still does after another page was selected. -/
theorem select_other {other number : Nat} (h : w.select page bank = .ok w)
    (hother : w.select other number = .ok v) (hne : other ≠ page) :
    v.select page bank = .ok v := by
  obtain ⟨hpage, hsame⟩ := select_eq_ok_iff.mp h
  obtain ⟨_, rfl⟩ := select_eq_ok_iff.mp hother
  have hpages : w.pages.set page (bank &&& w.bankMask) = w.pages := (congrArg pages hsame).symm
  refine select_eq_ok_iff.mpr ⟨?_, ?_⟩
  · simpa only [pageCount, List.length_set] using hpage
  · simp only [List.set_comm _ _ hne, hpages]

/-- What a page shows where selecting it again changes nothing. -/
theorem bank_of_select (h : w.select page bank = .ok w) :
    w.bank page = .ok (bank &&& w.bankMask) := by
  obtain ⟨hpage, hsame⟩ := select_eq_ok_iff.mp h
  have hpages : w.pages = w.pages.set page (bank &&& w.bankMask) := congrArg pages hsame
  unfold Window.bank
  rw [hpages, List.getElem?_set_self hpage]

/-- Two windows cut alike are the same if every page of both has been selected alike. -/
theorem IsCut.eq_of_select {size start pageSize pages : Nat}
    (hw : w.IsCut size start pageSize pages) (hv : v.IsCut size start pageSize pages)
    (h : ∀ page < pages, ∃ bank, w.select page bank = .ok w ∧ v.select page bank = .ok v) :
    w = v := by
  have hlength : w.pages.length = pages := hw.pageCount_eq
  have hlength' : v.pages.length = pages := hv.pageCount_eq
  have hcount : w.bankCount = v.bankCount := hw.bankCount_eq.trans hv.bankCount_eq.symm
  apply hw.eq_of_pages hv
  apply List.ext_getElem (hlength.trans hlength'.symm)
  intro page hpage hpage'
  obtain ⟨bank, hselect, hselect'⟩ := h page (by omega)
  have hbank := bank_of_select hselect
  have hbank' := bank_of_select hselect'
  rw [hw.and_bankMask, hcount, ← hv.and_bankMask, ← hbank'] at hbank
  unfold Window.bank at hbank
  rw [List.getElem?_eq_getElem hpage, List.getElem?_eq_getElem hpage'] at hbank
  exact Except.ok.inj hbank

theorem selectBefore_eq_ok_iff {back : Nat} :
    w.selectBefore page back = .ok v ↔
      back ≤ w.lastBank ∧ w.select page (w.lastBank - back) = .ok v := by
  unfold selectBefore
  split
  · rename_i hback
    exact ⟨fun h => ⟨hback, h⟩, fun h => h.2⟩
  · rename_i hback
    constructor
    · intro h
      cases h
    · rintro ⟨hle, _⟩
      exact absurd hle hback

theorem arrange_eq_ok_iff {m : Mirroring} :
    w.arrange m = .ok v ↔
      ∃ w₀ w₁ w₂, w.select 0 (m.page 0) = .ok w₀ ∧ w₀.select 1 (m.page 1) = .ok w₁ ∧
        w₁.select 2 (m.page 2) = .ok w₂ ∧ w₂.select 3 (m.page 3) = .ok v := by
  simp only [arrange, List.foldlM_cons, List.foldlM_nil, Fault.bind_eq_ok_iff]
  constructor
  · rintro ⟨w₀, h₀, w₁, h₁, w₂, h₂, w₃, h₃, heq⟩
    cases heq
    exact ⟨w₀, w₁, w₂, h₀, h₁, h₂, h₃⟩
  · rintro ⟨w₀, w₁, w₂, h₀, h₁, h₂, h₃⟩
    exact ⟨w₀, h₀, w₁, h₁, w₂, h₂, v, h₃, rfl⟩

/-- Each table stays while the later ones are put in place. -/
theorem arrange_select {m : Mirroring} (h : w.arrange m = .ok v) :
    ∀ table < 4, v.select table (m.page table) = .ok v := by
  obtain ⟨w₀, w₁, w₂, h₀, h₁, h₂, h₃⟩ := arrange_eq_ok_iff.mp h
  have s₀ := select_other (select_other (select_other (select_again h₀) h₁ (by omega)) h₂
    (by omega)) h₃ (by omega)
  have s₁ := select_other (select_other (select_again h₁) h₂ (by omega)) h₃ (by omega)
  have s₂ := select_other (select_again h₂) h₃ (by omega)
  intro table htable
  obtain rfl | rfl | rfl | rfl : table = 0 ∨ table = 1 ∨ table = 2 ∨ table = 3 := by omega
  · exact s₀
  · exact s₁
  · exact s₂
  · exact select_again h₃

theorem arrange_again {m : Mirroring} (h : w.arrange m = .ok v) : v.arrange m = .ok v := by
  have hselect := arrange_select h
  exact arrange_eq_ok_iff.mpr ⟨v, v, v, hselect 0 (by omega), hselect 1 (by omega),
    hselect 2 (by omega), hselect 3 (by omega)⟩

end Window

/-- What a selection takes hold of. -/
inductive Slot where
  | prg (page : Nat)
  | chr (page : Nat)
  | wram
  | nametables
  deriving DecidableEq

namespace Select

def slot : Select → Slot
  | prg page _ => .prg page
  | prgFromEnd page _ => .prg page
  | prgBefore page _ => .prg page
  | chr page _ => .chr page
  | wram _ => .wram
  | mirroring _ => .nametables

/-- The last of the selections that names a slot. -/
def last? (selects : List Select) (slot : Slot) : Option Select :=
  selects.reverse.find? fun s => s.slot = slot

variable {selects : List Select} {s : Select} {slot : Slot}

theorem last?_append (before after : List Select) :
    last? (before ++ after) slot = (last? after slot).or (last? before slot) := by
  simp only [last?, List.reverse_append, List.find?_append]

theorem last?_cons (s : Select) (rest : List Select) :
    last? (s :: rest) slot = (last? rest slot).or (if s.slot = slot then some s else none) := by
  by_cases hslot : s.slot = slot
  · simp [last?, hslot]
  · simp [last?, hslot]

theorem last?_eq_none_iff : last? selects slot = none ↔ ∀ s ∈ selects, s.slot ≠ slot := by
  simp only [last?, List.find?_eq_none, List.mem_reverse, decide_eq_true_eq]

/-- Where every slot is named once, every selection is the last of its slot. -/
theorem last?_of_nodup (hnodup : (selects.map Select.slot).Nodup) (hs : s ∈ selects) :
    last? selects s.slot = some s := by
  induction selects with
  | nil => cases hs
  | cons t rest ih =>
    obtain ⟨hfresh, hrest⟩ := List.nodup_cons.mp hnodup
    rw [last?_cons]
    rcases List.mem_cons.mp hs with rfl | hs
    · have hnone : last? rest s.slot = none := by
        refine last?_eq_none_iff.mpr ?_
        intro u hu heq
        exact hfresh (heq ▸ List.mem_map_of_mem hu)
      rw [hnone, if_pos rfl, Option.none_or]
    · rw [ih hrest hs, Option.some_or]

end Select

namespace Banks

variable {b b' : Banks} {s t : Select} {selects : List Select}

/-- The selection stands: to make it again changes nothing. -/
def Stands (b : Banks) (s : Select) : Prop := b.apply s = .ok b

/-! ## One selection -/

theorem apply_stands (h : b.apply s = .ok b') : b'.Stands s := by
  cases s with
  | prg page bank =>
    obtain ⟨w, hw, heq⟩ := Fault.bind_eq_ok_iff.mp h
    cases heq
    exact Fault.bind_eq_ok_iff.mpr ⟨w, Window.select_again hw, rfl⟩
  | prgFromEnd page back =>
    obtain ⟨w, hw, heq⟩ := Fault.bind_eq_ok_iff.mp h
    cases heq
    have hlast : w.lastBank = b.prg.lastBank := Window.select_bankMask hw
    have hagain : w.selectFromEnd page back = .ok w := by
      unfold Window.selectFromEnd
      rw [hlast]
      exact Window.select_again hw
    exact Fault.bind_eq_ok_iff.mpr ⟨w, hagain, rfl⟩
  | prgBefore page back =>
    obtain ⟨w, hw, heq⟩ := Fault.bind_eq_ok_iff.mp h
    cases heq
    obtain ⟨hback, hselect⟩ := Window.selectBefore_eq_ok_iff.mp hw
    have hlast : w.lastBank = b.prg.lastBank := Window.select_bankMask hselect
    have hagain : w.selectBefore page back = .ok w := by
      refine Window.selectBefore_eq_ok_iff.mpr ?_
      rw [hlast]
      exact ⟨hback, Window.select_again hselect⟩
    exact Fault.bind_eq_ok_iff.mpr ⟨w, hagain, rfl⟩
  | chr page bank =>
    obtain ⟨w, hw, heq⟩ := Fault.bind_eq_ok_iff.mp h
    cases heq
    exact Fault.bind_eq_ok_iff.mpr ⟨w, Window.select_again hw, rfl⟩
  | wram bank =>
    obtain ⟨w, hw, heq⟩ := Fault.bind_eq_ok_iff.mp h
    cases heq
    exact Fault.bind_eq_ok_iff.mpr ⟨w, Window.select_again hw, rfl⟩
  | mirroring m =>
    obtain ⟨w, hw, heq⟩ := Fault.bind_eq_ok_iff.mp h
    cases heq
    exact Fault.bind_eq_ok_iff.mpr ⟨w, Window.arrange_again hw, rfl⟩

/-- What a selection does to the window of its slot, and that it leaves the others. -/
theorem apply_frame (h : b.apply s = .ok b') :
    (b'.prg = b.prg ∨ ∃ page bank, s.slot = .prg page ∧ b.prg.select page bank = .ok b'.prg) ∧
    (b'.chr = b.chr ∨ ∃ page bank, s.slot = .chr page ∧ b.chr.select page bank = .ok b'.chr) ∧
    (b'.wram = b.wram ∨ s.slot = .wram) ∧
    (b'.nametables = b.nametables ∧ b'.mirroring = b.mirroring ∨ s.slot = .nametables) := by
  cases s with
  | prg page bank =>
    obtain ⟨w, hw, heq⟩ := Fault.bind_eq_ok_iff.mp h
    cases heq
    exact ⟨.inr ⟨page, bank, rfl, hw⟩, .inl rfl, .inl rfl, .inl ⟨rfl, rfl⟩⟩
  | prgFromEnd page back =>
    obtain ⟨w, hw, heq⟩ := Fault.bind_eq_ok_iff.mp h
    cases heq
    exact ⟨.inr ⟨page, _, rfl, hw⟩, .inl rfl, .inl rfl, .inl ⟨rfl, rfl⟩⟩
  | prgBefore page back =>
    obtain ⟨w, hw, heq⟩ := Fault.bind_eq_ok_iff.mp h
    cases heq
    obtain ⟨_, hselect⟩ := Window.selectBefore_eq_ok_iff.mp hw
    exact ⟨.inr ⟨page, _, rfl, hselect⟩, .inl rfl, .inl rfl, .inl ⟨rfl, rfl⟩⟩
  | chr page bank =>
    obtain ⟨w, hw, heq⟩ := Fault.bind_eq_ok_iff.mp h
    cases heq
    exact ⟨.inl rfl, .inr ⟨page, bank, rfl, hw⟩, .inl rfl, .inl ⟨rfl, rfl⟩⟩
  | wram bank =>
    obtain ⟨w, hw, heq⟩ := Fault.bind_eq_ok_iff.mp h
    cases heq
    exact ⟨.inl rfl, .inl rfl, .inr rfl, .inl ⟨rfl, rfl⟩⟩
  | mirroring m =>
    obtain ⟨w, hw, heq⟩ := Fault.bind_eq_ok_iff.mp h
    cases heq
    exact ⟨.inl rfl, .inl rfl, .inl rfl, .inr rfl⟩

/-! ## What standing says of a window -/

theorem stands_prg_iff {page bank : Nat} :
    b.Stands (.prg page bank) ↔ b.prg.select page bank = .ok b.prg := by
  constructor
  · intro h
    obtain ⟨w, hw, heq⟩ := Fault.bind_eq_ok_iff.mp h
    have hprg : w = b.prg := congrArg prg (Except.ok.inj heq)
    rw [hprg] at hw
    exact hw
  · intro h
    exact Fault.bind_eq_ok_iff.mpr ⟨b.prg, h, rfl⟩

theorem stands_prgFromEnd_iff {page back : Nat} :
    b.Stands (.prgFromEnd page back) ↔
      b.prg.select page (b.prg.lastBank - back) = .ok b.prg := stands_prg_iff

theorem stands_prgBefore_iff {page back : Nat} :
    b.Stands (.prgBefore page back) ↔
      back ≤ b.prg.lastBank ∧ b.prg.select page (b.prg.lastBank - back) = .ok b.prg := by
  rw [← Window.selectBefore_eq_ok_iff]
  constructor
  · intro h
    obtain ⟨w, hw, heq⟩ := Fault.bind_eq_ok_iff.mp h
    have hprg : w = b.prg := congrArg prg (Except.ok.inj heq)
    rw [hprg] at hw
    exact hw
  · intro h
    exact Fault.bind_eq_ok_iff.mpr ⟨b.prg, h, rfl⟩

theorem stands_chr_iff {page bank : Nat} :
    b.Stands (.chr page bank) ↔ b.chr.select page bank = .ok b.chr := by
  constructor
  · intro h
    obtain ⟨w, hw, heq⟩ := Fault.bind_eq_ok_iff.mp h
    have hchr : w = b.chr := congrArg chr (Except.ok.inj heq)
    rw [hchr] at hw
    exact hw
  · intro h
    exact Fault.bind_eq_ok_iff.mpr ⟨b.chr, h, rfl⟩

theorem stands_wram_iff {bank : Nat} :
    b.Stands (.wram bank) ↔ b.wram.select 0 bank = .ok b.wram := by
  constructor
  · intro h
    obtain ⟨w, hw, heq⟩ := Fault.bind_eq_ok_iff.mp h
    have hwram : w = b.wram := congrArg wram (Except.ok.inj heq)
    rw [hwram] at hw
    exact hw
  · intro h
    exact Fault.bind_eq_ok_iff.mpr ⟨b.wram, h, rfl⟩

theorem stands_mirroring_iff {m : Mirroring} :
    b.Stands (.mirroring m) ↔ b.nametables.arrange m = .ok b.nametables ∧ b.mirroring = m := by
  constructor
  · intro h
    obtain ⟨w, hw, heq⟩ := Fault.bind_eq_ok_iff.mp h
    have htables : w = b.nametables := congrArg nametables (Except.ok.inj heq)
    rw [htables] at hw
    exact ⟨hw, (congrArg mirroring (Except.ok.inj heq)).symm⟩
  · rintro ⟨h, rfl⟩
    exact Fault.bind_eq_ok_iff.mpr ⟨b.nametables, h, rfl⟩

/-! ## Lists of selections -/

theorem Stands.apply_other (hs : b.Stands s) (ht : b.apply t = .ok b') (hne : t.slot ≠ s.slot) :
    b'.Stands s := by
  obtain ⟨hprg, hchr, hwram, htables⟩ := apply_frame ht
  -- Only the window of the slot matters, and there only a selection of another page is left.
  have hselect {page bank : Nat} (hslot : s.slot = .prg page)
      (h : b.prg.select page bank = .ok b.prg) :
      b'.prg.select page bank = .ok b'.prg ∧ b'.prg.lastBank = b.prg.lastBank := by
    rcases hprg with heq | ⟨other, number, hother, hnew⟩
    · rw [heq]
      exact ⟨h, rfl⟩
    · have hpages : other ≠ page := by
        rintro rfl
        exact hne (hother.trans hslot.symm)
      exact ⟨Window.select_other h hnew hpages, Window.select_bankMask hnew⟩
  cases s with
  | prg page bank => exact stands_prg_iff.mpr (hselect rfl (stands_prg_iff.mp hs)).1
  | prgFromEnd page back =>
    obtain ⟨hstill, hlast⟩ := hselect rfl (stands_prgFromEnd_iff.mp hs)
    refine stands_prgFromEnd_iff.mpr ?_
    rw [hlast]
    exact hstill
  | prgBefore page back =>
    obtain ⟨hback, hold⟩ := stands_prgBefore_iff.mp hs
    obtain ⟨hstill, hlast⟩ := hselect rfl hold
    refine stands_prgBefore_iff.mpr ?_
    rw [hlast]
    exact ⟨hback, hstill⟩
  | chr page bank =>
    have hold := stands_chr_iff.mp hs
    refine stands_chr_iff.mpr ?_
    rcases hchr with heq | ⟨other, number, hother, hnew⟩
    · rw [heq]
      exact hold
    · have hpages : other ≠ page := by
        rintro rfl
        exact hne hother
      exact Window.select_other hold hnew hpages
  | wram bank =>
    rcases hwram with heq | hslot
    · rw [stands_wram_iff, heq]
      exact stands_wram_iff.mp hs
    · exact absurd hslot hne
  | mirroring m =>
    rcases htables with ⟨heq, hm⟩ | hslot
    · rw [stands_mirroring_iff, heq, hm]
      exact stands_mirroring_iff.mp hs
    · exact absurd hslot hne

theorem Stands.applyAll (hs : b.Stands s) (h : b.applyAll selects = .ok b')
    (hspared : ∀ t ∈ selects, t.slot ≠ s.slot) : b'.Stands s := by
  induction selects generalizing b with
  | nil =>
    cases h
    exact hs
  | cons t rest ih =>
    obtain ⟨next, hnext, hrest⟩ := Fault.bind_eq_ok_iff.mp h
    have hstill := hs.apply_other hnext (hspared t (List.mem_cons_self ..))
    exact ih hstill hrest fun u hu => hspared u (List.mem_cons_of_mem t hu)

theorem applyAll_stands (h : b.applyAll selects = .ok b')
    (hlast : Select.last? selects s.slot = some s) : b'.Stands s := by
  induction selects generalizing b with
  | nil => cases hlast
  | cons t rest ih =>
    obtain ⟨next, hnext, hrest⟩ := Fault.bind_eq_ok_iff.mp h
    rw [Select.last?_cons] at hlast
    cases hlater : Select.last? rest s.slot with
    | some u =>
      rw [hlater, Option.some_or] at hlast
      exact ih hrest (hlater.trans hlast)
    | none =>
      rw [hlater, Option.none_or] at hlast
      split at hlast
      · cases hlast
        exact (apply_stands hnext).applyAll hrest (Select.last?_eq_none_iff.mp hlater)
      · cases hlast

/-- Selections that stand can be made again, all of them, without a change. -/
theorem applyAll_eq_self (h : ∀ s ∈ selects, b.Stands s) : b.applyAll selects = .ok b := by
  induction selects with
  | nil => rfl
  | cons s rest ih =>
    have hrest := ih fun t ht => h t (List.mem_cons_of_mem s ht)
    exact Fault.bind_eq_ok_iff.mpr ⟨b, h s (List.mem_cons_self ..), hrest⟩

end Banks

namespace Select

variable {made old new : List Select} {b b' : Banks}

/-- Where the selections `old` stood, the selections `new` stand once the ones made have been. -/
def Renews (made old new : List Select) : Prop :=
  ∀ s ∈ new, last? made s.slot = some s ∨ s ∈ old ∧ last? made s.slot = none

instance : Decidable (Renews made old new) := inferInstanceAs (Decidable (∀ s ∈ new, _))

theorem Renews.stands (h : Renews made old new) (hmade : b.applyAll made = .ok b')
    (hold : ∀ s ∈ old, b.Stands s) : ∀ s ∈ new, b'.Stands s := by
  intro s hs
  rcases h s hs with hlast | ⟨hmem, hnone⟩
  · exact Banks.applyAll_stands hmade hlast
  · exact (hold s hmem).applyAll hmade (last?_eq_none_iff.mp hnone)

theorem Renews.none : Renews [] old old := fun _ hs => .inr ⟨hs, rfl⟩

/-- To make all of the new selections, whatever else before them, is to renew. -/
theorem Renews.all (hnodup : (new.map Select.slot).Nodup) (before : List Select) :
    Renews (before ++ new) old new := by
  intro s hs
  left
  rw [last?_append, last?_of_nodup hnodup hs, Option.some_or]

/-- Selections of other slots leave what stands. -/
theorem Renews.spared (h : ∀ s ∈ old, ∀ t ∈ made, t.slot ≠ s.slot) : Renews made old old :=
  fun s hs => .inr ⟨hs, last?_eq_none_iff.mpr (h s hs)⟩

theorem Renews.once (s : Select) : Renews [s] old [s] := by
  have hnodup : ([s].map Select.slot).Nodup := List.pairwise_singleton _ _
  exact Renews.all hnodup []

theorem Renews.both {new' : List Select} (h : Renews made old new) (h' : Renews made old new') :
    Renews made old (new ++ new') := by
  intro s hs
  rcases List.mem_append.mp hs with hs | hs
  · exact h s hs
  · exact h' s hs

theorem Renews.mono {old' : List Select} (h : Renews made old new) (hold : ∀ s ∈ old, s ∈ old') :
    Renews made old' new :=
  fun s hs => (h s hs).imp_right fun ⟨hmem, hnone⟩ => ⟨hold s hmem, hnone⟩

theorem Renews.append {old' new' : List Select} (h : Renews made old new)
    (h' : Renews made old' new') : Renews made (old ++ old') (new ++ new') :=
  (h.mono fun _ => List.mem_append_left _).both (h'.mono fun _ => List.mem_append_right _)

end Select

end GamePak
