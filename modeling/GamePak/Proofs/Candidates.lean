import GamePak.Proofs.Wiring

/-!
The candidates of the registry. Each kind of board goes by names of its own: no name is on two
lists, and no listed name is a generic one with a mapper number of the VRC4, which reads numbers
in whatever way they are written. So the name of a descriptor leaves one kind at most, its sizes
decide whether that one fits, and the order in which candidates are tried decides nothing.
-/

namespace GamePak

variable {d : Descriptor}

namespace BoardKind

variable {k k' : BoardKind} {board : String}

/-- The names that a kind of board lists. -/
def boards : BoardKind → List String
  | discrete b => b.boards
  | mmc1 => Mmc1.boards
  | mmc2 => Mmc2.boards
  | mmc3 => Mmc3.boards
  | fcg => Fcg.boards
  | vrc4 => Vrc4.boards
  | fme7 => Fme7.boards
  | codemasters => Codemasters.boards
  | vrc3 => Vrc3.boards

/-- The kind goes by this name, which is on its list or, for the VRC4, has one of its mapper
numbers. -/
def GoesBy (k : BoardKind) (board : String) : Prop :=
  board ∈ k.boards ∨
    k = .vrc4 ∧ ∃ mapper ∈ Vrc4.mappers, MapperName.number? board = some mapper

/-! ## Names -/

theorem mem_kinds (k : BoardKind) : k ∈ Registry.kinds := by
  cases k with
  | discrete b => cases b <;> decide
  | _ => decide

/-- The first kind that lists a name. -/
def listing? (board : String) : Option BoardKind :=
  Registry.kinds.find? fun k => k.boards.contains board

theorem listing?_of_mem (h : board ∈ k.boards) : listing? board = some k := by
  have hlists : ∀ k ∈ Registry.kinds, ∀ board ∈ k.boards, listing? board = some k := by
    decide +kernel
  exact hlists k k.mem_kinds board h

theorem number?_of_mem (h : board ∈ k.boards) {mapper : UInt16} (hmapper : mapper ∈ Vrc4.mappers) :
    MapperName.number? board ≠ some mapper := by
  have hlists : Registry.kinds.all (fun k => k.boards.all fun board =>
      !(MapperName.number? board).any Vrc4.mappers.contains) := by
    decide +kernel
  intro hnumber
  have hboard := List.all_eq_true.mp (List.all_eq_true.mp hlists k k.mem_kinds) board h
  simp [hnumber, hmapper] at hboard

theorem GoesBy.unique (h : k.GoesBy board) (h' : k'.GoesBy board) : k = k' := by
  rcases h with hlist | ⟨hvrc4, mapper, hmapper, hnumber⟩
  · rcases h' with hlist' | ⟨_, mapper, hmapper, hnumber⟩
    · exact Option.some.inj ((listing?_of_mem hlist).symm.trans (listing?_of_mem hlist'))
    · exact absurd hnumber (number?_of_mem hlist hmapper)
  · rcases h' with hlist' | ⟨hvrc4', _⟩
    · exact absurd hnumber (number?_of_mem hlist' hmapper)
    · exact hvrc4.trans hvrc4'.symm

end BoardKind

/-! ## Candidates -/

/-- The condition of every candidate but the VRC4 begins with its list of names. -/
theorem Descriptor.mem_of_fits {α : Type} {boards : List String} {P : Prop} {reply own : α}
    [Decidable (d.isAnyOf boards = true ∧ P)]
    (h : (if d.isAnyOf boards ∧ P then some reply else none) = some own) : d.board ∈ boards := by
  obtain ⟨⟨hname, _⟩, _⟩ := Option.ite_none_right_eq_some.mp h
  exact List.contains_iff_mem.mp hname

theorem Vrc4.goesBy_of_wiring {mapper : UInt16} (h : wiring? d = some mapper) :
    BoardKind.vrc4.GoesBy d.board := by
  unfold wiring? at h
  split at h
  · rename_i hname
    exact .inl (List.contains_iff_mem.mp hname)
  · obtain ⟨hnumber, hmapper⟩ := Option.filter_eq_some_iff.mp h
    exact .inr ⟨rfl, mapper, List.contains_iff_mem.mp hmapper, hnumber⟩

theorem Vrc4.wiring?_of_mapper {mapper : UInt16} (h : d.mapper? = some mapper)
    (hmem : mapper ∈ mappers) : wiring? d = some mapper := by
  have hname : ¬ d.isAnyOf boards = true := by
    intro hname
    exact BoardKind.number?_of_mem (k := .vrc4) (List.contains_iff_mem.mp hname) hmem h
  unfold wiring?
  rw [if_neg hname, h]
  exact Option.filter_eq_some_iff.mpr ⟨rfl, List.contains_iff_mem.mpr hmem⟩

namespace BoardKind

variable {k k' : BoardKind} {reply reply' : Reply Board}

theorem start?_goesBy (h : k.start? d = some reply) : k.GoesBy d.board := by
  cases k with
  | vrc4 =>
    obtain ⟨own, hown, _⟩ := Option.map_eq_some_iff.mp h
    obtain ⟨_, mapper, hmapper, _⟩ := Vrc4.start?_eq_some hown
    exact Vrc4.goesBy_of_wiring hmapper
  | _ =>
    obtain ⟨own, hown, _⟩ := Option.map_eq_some_iff.mp h
    exact .inl (Descriptor.mem_of_fits hown)

theorem start?_unique (h : k.start? d = some reply) (h' : k'.start? d = some reply') : k = k' :=
  (start?_goesBy h).unique (start?_goesBy h')

theorem Chosen.goesBy (h : k.Chosen d) : k.GoesBy d.board := by
  obtain ⟨fresh, banks, notes, hfound, rfl⟩ := h
  obtain ⟨k, start, plain, hstart, _, _, rfl⟩ := Registry.configureFrom_eq_some hfound
  rw [(start_keeps hstart).kind]
  exact start?_goesBy hstart

end BoardKind

/-! ## Lists of candidates -/

namespace Registry

variable {kinds kinds' : List BoardKind} {found found' : Noted (Option (Board × Banks))}

theorem configureFrom_eq_none_iff (h : configureFrom d kinds = .ok found) :
    found.value = none ↔ ∀ k ∈ kinds, k.start? d = none := by
  induction kinds generalizing found with
  | nil =>
    cases h
    exact iff_of_true rfl (List.forall_mem_nil _)
  | cons k rest ih =>
    obtain ⟨plain, _, h⟩ := Fault.bind_eq_ok_iff.mp h
    rw [List.forall_mem_cons]
    cases hstart : k.start? d with
    | none =>
      rw [hstart] at h
      obtain ⟨later, hlater, heq⟩ := Fault.bind_eq_ok_iff.mp h
      cases heq
      rw [ih hlater, and_iff_right rfl]
    | some start =>
      rw [hstart] at h
      obtain ⟨banks, _, heq⟩ := Fault.bind_eq_ok_iff.mp h
      cases heq
      apply iff_of_false
      · exact Option.some_ne_none _
      · intro hall
        exact Option.some_ne_none _ hall.1

/-- The candidates that are tried say what is found; their order does not. -/
theorem configureFrom_value (h : configureFrom d kinds = .ok found)
    (h' : configureFrom d kinds' = .ok found') (hsame : ∀ k, k ∈ kinds ↔ k ∈ kinds') :
    found.value = found'.value := by
  have hnone : found.value = none ↔ found'.value = none := by
    rw [configureFrom_eq_none_iff h, configureFrom_eq_none_iff h']
    constructor
    · intro hall k hk
      exact hall k ((hsame k).mpr hk)
    · intro hall k hk
      exact hall k ((hsame k).mp hk)
  obtain ⟨value, notes⟩ := found
  obtain ⟨value', notes'⟩ := found'
  cases value with
  | none => exact (hnone.mp rfl).symm
  | some pair =>
    cases value' with
    | none => cases hnone.mpr rfl
    | some pair' =>
      obtain ⟨k, start, plain, hstart, hplain, hbanks, hboard⟩ := configureFrom_eq_some h
      obtain ⟨k', start', plain', hstart', hplain', hbanks', hboard'⟩ := configureFrom_eq_some h'
      obtain rfl := BoardKind.start?_unique hstart hstart'
      obtain rfl := Option.some.inj (hstart.symm.trans hstart')
      obtain rfl := Except.ok.inj (hplain.symm.trans hplain')
      have hpair : pair = pair' :=
        Prod.ext (hboard.trans hboard'.symm) (Except.ok.inj (hbanks.symm.trans hbanks'))
      rw [hpair]

/-- Each candidate is in the table once, so of two places in it one turns the descriptor down. -/
theorem kinds_pairwise (d : Descriptor) :
    Registry.kinds.Pairwise fun k k' => k.start? d = none ∨ k'.start? d = none := by
  have hnodup : Registry.kinds.Nodup := by decide
  apply hnodup.imp
  intro k k' hne
  cases hstart : k.start? d with
  | none => exact .inl rfl
  | some reply =>
    cases hstart' : k'.start? d with
    | none => exact .inr rfl
    | some reply' => exact absurd (BoardKind.start?_unique hstart hstart') hne

end Registry

/-- The order of the registry does not matter. At most one candidate takes a descriptor, so that a
descriptor which passes its check gets the same board and banks from the table in any order; and
of two descriptors of one name that get boards at all, both get the same kind. -/
theorem registry_order_irrelevant (d : Descriptor) :
    (Registry.kinds.Pairwise fun k k' => k.start? d = none ∨ k'.start? d = none) ∧
    (d.Valid → ∀ kinds : List BoardKind, kinds.Perm Registry.kinds →
      ∃ found found', Registry.configure d = .ok found ∧
        Registry.configureFrom d kinds = .ok found' ∧ found'.value = found.value) ∧
    ∀ d' : Descriptor, d'.board = d.board → ∀ k k' : BoardKind, k.Chosen d → k'.Chosen d' →
      k = k' := by
  refine ⟨Registry.kinds_pairwise d, ?_, ?_⟩
  · intro hd kinds hperm
    obtain ⟨found, hfound⟩ := Registry.exists_configureFrom hd Registry.kinds
    obtain ⟨found', hfound'⟩ := Registry.exists_configureFrom hd kinds
    exact ⟨found, found', hfound, hfound',
      Registry.configureFrom_value hfound' hfound fun _ => hperm.mem_iff⟩
  · intro d' hboard k k' hk hk'
    have hname := hk'.goesBy
    rw [hboard] at hname
    exact hk.goesBy.unique hname

namespace Descriptor

/-- A mapper number with a sign and more zeros than it needs. -/
def signedVrc4 : Descriptor := .named "MAPPER+0021" 0x8000 0x2000

/-- The same name on a larger cartridge that is wired otherwise. -/
def largeSignedVrc4 : Descriptor :=
  { signedVrc4 with
    submapper := 3, prgSize := 0x40000, chrSize := 0x80000, wramSize := 0x2000
    mirroring := .fourScreen }

theorem signedVrc4_chosen : BoardKind.vrc4.Chosen signedVrc4 := ⟨_, _, _, rfl, rfl⟩

theorem largeSignedVrc4_chosen : ∃ k : BoardKind, k.Chosen largeSignedVrc4 :=
  ⟨.vrc4, _, _, _, rfl, rfl⟩

end Descriptor

/-- The table from last to first finds the board of a name that no list has. -/
theorem registry_order_irrelevant_signedVrc4 :
    Descriptor.signedVrc4.Valid ∧
    (∃ found found', Registry.configure .signedVrc4 = .ok found ∧
      Registry.configureFrom .signedVrc4 Registry.kinds.reverse = .ok found' ∧
      found'.value = found.value) ∧
    ∃ k : BoardKind, k.Chosen .largeSignedVrc4 ∧ k = .vrc4 := by
  have hvalid : Descriptor.signedVrc4.Valid := by decide
  obtain ⟨_, hperm, hkinds⟩ := registry_order_irrelevant .signedVrc4
  obtain ⟨k, hk⟩ := Descriptor.largeSignedVrc4_chosen
  exact ⟨hvalid, hperm hvalid _ (List.reverse_perm _), k, hk,
    (hkinds .largeSignedVrc4 rfl .vrc4 k Descriptor.signedVrc4_chosen hk).symm⟩

end GamePak
