import GamePak.Proofs.Candidates
import GamePak.Proofs.MapperNames

/-!
Spellings of a mapper number. A generic name may fill its number up with zeros and put a plus sign
before it, and all of these names are read as one number. The VRC4 goes by the number, so that it
gets the same registers and banks whichever way the number is written. Every other kind of board
lists one spelling of its number, the one with three digits at least, and a descriptor with another
spelling gets no board.
-/

namespace GamePak

variable {d : Descriptor} {mapper : UInt16} {board : String}

/-! ## Listed names -/

theorem BoardKind.eq_ofNumber_of_mem {k : BoardKind} (h : board ∈ k.boards)
    (hnumber : MapperName.number? board = some mapper) : board = MapperName.ofNumber mapper := by
  -- of the names that are read as a number, the lists have the generic one only
  have hlists : Registry.kinds.all (fun k => k.boards.all fun board =>
      (MapperName.number? board).all fun mapper => board == MapperName.ofNumber mapper) := by
    decide +kernel
  have hboard := List.all_eq_true.mp (List.all_eq_true.mp hlists k k.mem_kinds) board h
  rw [hnumber] at hboard
  exact beq_iff_eq.mp hboard

/-! ## What a spelling leads to -/

theorem BoardKind.start?_of_number {k : BoardKind} (hmapper : d.mapper? = some mapper)
    (hmem : mapper ∈ Vrc4.mappers) (hk : k ≠ .vrc4) : k.start? d = none := by
  cases hstart : k.start? d with
  | none => rfl
  | some reply => exact absurd ((start?_goesBy hstart).unique (.inr ⟨rfl, _, hmem, hmapper⟩)) hk

theorem BoardKind.start?_spelling (k : BoardKind) (hmapper : d.mapper? = some mapper)
    (hboard : MapperName.number? board = some mapper) (hmem : mapper ∈ Vrc4.mappers) :
    k.start? { d with board } = k.start? d := by
  have hspelled : { d with board }.mapper? = some mapper := hboard
  by_cases hk : k = .vrc4
  · subst hk
    have hwiring : Vrc4.wiring? { d with board } = Vrc4.wiring? d :=
      (Vrc4.wiring?_of_mapper hspelled hmem).trans (Vrc4.wiring?_of_mapper hmapper hmem).symm
    have hstart : Vrc4.start? { d with board } = Vrc4.start? d := by
      unfold Vrc4.start?
      rw [hwiring]
      rfl
    exact congrArg (Option.map (Reply.map Board.vrc4)) hstart
  · rw [start?_of_number hmapper hmem hk, start?_of_number hspelled hmem hk]

namespace Registry

variable {found found' : Noted (Option (Board × Banks))}

theorem configureFrom_spelling {kinds : List BoardKind}
    (hstart : ∀ k : BoardKind, k.start? { d with board } = k.start? d)
    (h : configureFrom d kinds = .ok found)
    (h' : configureFrom { d with board } kinds = .ok found') : found'.value = found.value := by
  induction kinds generalizing found found' with
  | nil =>
    cases h
    cases h'
    rfl
  | cons k rest ih =>
    obtain ⟨plain, hplain, h⟩ := Fault.bind_eq_ok_iff.mp h
    obtain ⟨plain', hplain', h'⟩ := Fault.bind_eq_ok_iff.mp h'
    -- the windows at power-on do not depend on the name
    obtain rfl : plain' = plain := Except.ok.inj (hplain'.symm.trans hplain)
    rw [hstart] at h'
    cases hk : k.start? d with
    | none =>
      rw [hk] at h h'
      obtain ⟨later, hlater, heq⟩ := Fault.bind_eq_ok_iff.mp h
      obtain ⟨later', hlater', heq'⟩ := Fault.bind_eq_ok_iff.mp h'
      cases heq
      cases heq'
      have hvalue := ih hlater hlater'
      exact hvalue
    | some start =>
      rw [hk] at h h'
      obtain ⟨banks, hbanks, heq⟩ := Fault.bind_eq_ok_iff.mp h
      obtain ⟨banks', hbanks', heq'⟩ := Fault.bind_eq_ok_iff.mp h'
      obtain rfl : banks' = banks := Except.ok.inj (hbanks'.symm.trans hbanks)
      cases heq
      cases heq'
      rfl

theorem configure_eq_none_of_spelling (hmapper : d.mapper? = some mapper)
    (hmem : mapper ∉ Vrc4.mappers) (hname : d.board ≠ MapperName.ofNumber mapper)
    (h : configure d = .ok found) : found.value = none := by
  rw [configureFrom_eq_none_iff h]
  intro k _
  cases hstart : k.start? d with
  | none => rfl
  | some reply =>
    rcases BoardKind.start?_goesBy hstart with hlist | ⟨_, other, hother, hnumber⟩
    · exact absurd (BoardKind.eq_ofNumber_of_mem hlist hmapper) hname
    · obtain rfl : mapper = other := Option.some.inj (hmapper.symm.trans hnumber)
      exact absurd hother hmem

/-- What a name that is read as a number gets, by what the generic name of the number gets. -/
theorem configure_spelling (hd : d.Valid) (hmapper : d.mapper? = some mapper) :
    ∃ found canonical, configure d = .ok found ∧
      configure { d with board := MapperName.ofNumber mapper } = .ok canonical ∧
      found.value =
        if mapper ∈ Vrc4.mappers ∨ d.board = MapperName.ofNumber mapper then canonical.value
        else none := by
  obtain ⟨found, hfound⟩ := exists_configureFrom hd kinds
  have hvalid : { d with board := MapperName.ofNumber mapper }.Valid := hd
  obtain ⟨canonical, hcanonical⟩ := exists_configureFrom hvalid kinds
  refine ⟨found, canonical, hfound, hcanonical, ?_⟩
  split
  · rename_i hknown
    rcases hknown with hmem | hname
    · have hstart := fun k =>
        BoardKind.start?_spelling k hmapper (MapperName.number?_ofNumber mapper) hmem
      exact (configureFrom_spelling hstart hfound hcanonical).symm
    · rw [← hname] at hcanonical
      rw [Except.ok.inj (hfound.symm.trans hcanonical)]
  · rename_i hunknown
    exact configure_eq_none_of_spelling hmapper (fun hmem => hunknown (.inl hmem))
      (fun hname => hunknown (.inr hname)) hfound

end Registry

/-- Two names with one mapper number, on descriptors that otherwise agree, get the same board and
banks just where the number is one of the VRC4, or the generic name of the number gets none either,
or both names are that generic name or neither is. Any other spelling of any other number gets no
board, and two names that both get one get the same. -/
theorem spellings_told_apart (hd : d.Valid) (hmapper : d.mapper? = some mapper)
    (hboard : MapperName.number? board = some mapper) :
    ∃ found found' canonical, Registry.configure d = .ok found ∧
      Registry.configure { d with board } = .ok found' ∧
      Registry.configure { d with board := MapperName.ofNumber mapper } = .ok canonical ∧
      (found.value = found'.value ↔ mapper ∈ Vrc4.mappers ∨ canonical.value = none ∨
        (d.board = MapperName.ofNumber mapper ↔ board = MapperName.ofNumber mapper)) ∧
      (mapper ∉ Vrc4.mappers → board ≠ MapperName.ofNumber mapper → found'.value = none) ∧
      ∀ chosen chosen', found.value = some chosen → found'.value = some chosen' →
        chosen = chosen' := by
  obtain ⟨found, canonical, hfound, hcanonical, hvalue⟩ := Registry.configure_spelling hd hmapper
  obtain ⟨found', canonical', hfound', hcanonical', hvalue'⟩ :=
    Registry.configure_spelling (d := { d with board }) hd hboard
  obtain rfl : canonical = canonical' := Except.ok.inj (hcanonical.symm.trans hcanonical')
  refine ⟨found, found', canonical, hfound, hfound', hcanonical, ?_, ?_, ?_⟩
  · rw [hvalue, hvalue']
    by_cases hmem : mapper ∈ Vrc4.mappers
    · simp [hmem]
    · by_cases hname : d.board = MapperName.ofNumber mapper <;>
        by_cases hname' : board = MapperName.ofNumber mapper <;>
        simp [hmem, hname, hname', eq_comm]
  · intro hmem hname
    rw [hvalue', if_neg (not_or.mpr ⟨hmem, hname⟩)]
  · intro chosen chosen' hchosen hchosen'
    rw [hvalue, Option.ite_none_right_eq_some] at hchosen
    rw [hvalue', Option.ite_none_right_eq_some] at hchosen'
    exact Option.some.inj (hchosen.2.symm.trans hchosen'.2)

namespace Descriptor

def genericMmc3 : Descriptor := .named "MAPPER004" 0x8000 0x2000

def shortMmc3 : Descriptor := { genericMmc3 with board := "MAPPER4" }

end Descriptor

/-- A number of the VRC4 may have a sign and other zeros, the number of the MMC3 may not. -/
theorem spellings_told_apart_vrc4_mmc3 :
    Descriptor.signedVrc4.Valid ∧ Descriptor.signedVrc4.mapper? = some 21 ∧
    (∃ found found', Registry.configure .signedVrc4 = .ok found ∧
      Registry.configure { Descriptor.signedVrc4 with board := "MAPPER21" } = .ok found' ∧
      found.value = found'.value) ∧
    Descriptor.genericMmc3.Valid ∧ Descriptor.genericMmc3.mapper? = some 4 ∧
    ∃ found', Registry.configure { Descriptor.genericMmc3 with board := "MAPPER+0004" } =
      .ok found' ∧ found'.value = none := by
  have hvrc4 : Descriptor.signedVrc4.Valid := by decide
  have hmmc3 : Descriptor.genericMmc3.Valid := by decide
  have hvrc4Number : Descriptor.signedVrc4.mapper? = some 21 := by decide
  have hmmc3Number : Descriptor.genericMmc3.mapper? = some 4 := by decide
  have hshort : MapperName.number? "MAPPER21" = some 21 := by decide
  have hsigned : MapperName.number? "MAPPER+0004" = some 4 := by decide
  obtain ⟨found, found', _, hfound, hfound', _, hsame, _⟩ :=
    spellings_told_apart hvrc4 hvrc4Number hshort
  obtain ⟨_, other, _, _, hother, _, _, hnone, _⟩ :=
    spellings_told_apart hmmc3 hmmc3Number hsigned
  exact ⟨hvrc4, hvrc4Number, ⟨found, found', hfound, hfound', hsame.mpr (.inl (by decide))⟩,
    hmmc3, hmmc3Number, other, hother, hnone (by decide) (by decide)⟩

/-- Two names of mapper 4, of which one gets a board. -/
theorem spelling_refused_shortMmc3 :
    Descriptor.genericMmc3.Valid ∧ Descriptor.shortMmc3.Valid ∧
    Descriptor.genericMmc3.mapper? = some 4 ∧ Descriptor.shortMmc3.mapper? = some 4 ∧
    BoardKind.mmc3.Chosen .genericMmc3 ∧
    ∃ found, Registry.configure .shortMmc3 = .ok found ∧ found.value = none := by
  exact ⟨by decide, by decide, by decide, by decide, ⟨_, _, _, rfl, rfl⟩, _, rfl, rfl⟩

end GamePak
