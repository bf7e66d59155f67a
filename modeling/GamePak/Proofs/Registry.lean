import GamePak.Proofs.Boards

/-!
Configuring a board. The registry never faults on a descriptor that has been checked, whichever of
the candidates turn it down, and the board that it finds comes with banks of its own layout.
-/

namespace GamePak

namespace Registry

variable {d : Descriptor}

theorem exists_configureFrom (hd : d.Valid) (kinds : List BoardKind) :
    ∃ found, configureFrom d kinds = .ok found := by
  induction kinds with
  | nil => exact ⟨_, rfl⟩
  | cons k rest ih =>
    obtain ⟨banks, hbanks⟩ := Banks.exists_powerOn hd k.layout_covers
    unfold configureFrom
    rw [hbanks]
    cases hstart : k.start? d with
    | none =>
      obtain ⟨later, hlater⟩ := ih
      rw [hlater]
      exact ⟨_, rfl⟩
    | some start =>
      have hkeeps := BoardKind.start_keeps hstart
      obtain ⟨selected, hselected⟩ :=
        Banks.exists_applyAll (Banks.powerOn_fitted hbanks) hkeeps.fits
      simp only [bind, Except.bind, hselected]
      exact ⟨_, rfl⟩

/-- The board that is found has made its first selections in windows fresh from power-on. -/
theorem configureFrom_eq_some {kinds : List BoardKind} {board : Board} {banks : Banks}
    {notes : List Note}
    (h : configureFrom d kinds = .ok { value := some (board, banks), notes }) :
    ∃ (k : BoardKind) (start : Reply Board) (plain : Banks), k.start? d = some start ∧
      Banks.powerOn d k.layout = .ok plain ∧ plain.applyAll start.selects = .ok banks ∧
      board = start.registers := by
  induction kinds generalizing notes with
  | nil =>
    unfold configureFrom at h
    cases h
  | cons k rest ih =>
    unfold configureFrom at h
    obtain ⟨plain, hplain, h⟩ := Fault.bind_eq_ok_iff.mp h
    cases hstart : k.start? d with
    | none =>
      rw [hstart] at h
      obtain ⟨later, hlater, heq⟩ := Fault.bind_eq_ok_iff.mp h
      obtain ⟨value, laterNotes⟩ := later
      cases heq
      exact ih hlater
    | some start =>
      rw [hstart] at h
      obtain ⟨selected, hselected, heq⟩ := Fault.bind_eq_ok_iff.mp h
      cases heq
      exact ⟨k, start, plain, hstart, hplain, hselected, rfl⟩

theorem configure_fitted {board : Board} {banks : Banks} {notes : List Note}
    (h : configure d = .ok { value := some (board, banks), notes }) :
    board.Valid ∧ banks.Fitted d board.kind.layout := by
  obtain ⟨k, start, plain, hstart, hplain, hselected, rfl⟩ := configureFrom_eq_some h
  have hkeeps := BoardKind.start_keeps hstart
  rw [hkeeps.kind]
  exact ⟨hkeeps.valid, Banks.applyAll_fitted (Banks.powerOn_fitted hplain) hselected⟩

end Registry

/-- The registry gives the descriptor a board of this kind. -/
def BoardKind.Chosen (k : BoardKind) (d : Descriptor) : Prop :=
  ∃ fresh banks notes,
    Registry.configure d = .ok { value := some (fresh, banks), notes } ∧ fresh.kind = k

theorem BoardKind.Chosen.unique {d : Descriptor} {k k' : BoardKind} (h : k.Chosen d)
    (h' : k'.Chosen d) : k = k' := by
  obtain ⟨fresh, banks, notes, hfound, rfl⟩ := h
  obtain ⟨fresh', banks', notes', hfound', rfl⟩ := h'
  rw [hfound] at hfound'
  cases hfound'
  rfl

end GamePak
