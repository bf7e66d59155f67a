import GamePak.Proofs.Snapshots

/-!
What outlasts a run. An event turns the registers and the banks of a cartridge into others, and
nothing else about the cartridge says into which. So a relation between registers and banks that
holds at power-on, and that each kind of event keeps, holds of every reachable cartridge: save RAM
does not touch the two, and the snapshot of a reachable cartridge brings along a pair for which it
holds already.
-/

namespace GamePak

namespace Event

/-- What an event makes of registers and banks. -/
def Effect (e : Event) (board : Board) (banks : Banks) (board' : Board) (banks' : Banks) : Prop :=
  match e with
  | write addr value =>
    ∃ reply, board.write addr value = .ok reply ∧ banks.applyAll reply.selects = .ok banks' ∧
      board' = reply.registers
  | readVideo addr =>
    banks.applyAll (board.afterRead (Cartridge.videoAddress addr)).selects = .ok banks' ∧
      board' = (board.afterRead (Cartridge.videoAddress addr)).registers
  | clock => board.clock = .ok board' ∧ banks' = banks
  | scanline => board.scanline = .ok board' ∧ banks' = banks
  | acknowledge => board' = board.acknowledge ∧ banks' = banks
  | read _ => board' = board ∧ banks' = banks
  | writeVideo _ _ => board' = board ∧ banks' = banks

end Event

theorem Cartridge.loadSaveRam_eq_ok {c c' : Cartridge} {data : Memory}
    (h : c.loadSaveRam data = .ok c') : c' = { c with wram := data } := by
  unfold loadSaveRam at h
  split at h
  · exact (Except.ok.inj h).symm
  · cases h

theorem Machine.step_effect {m next : Machine} {e : Event} {answer : Answer}
    (h : m.step e = .ok (next, answer)) :
    e.Effect m.cartridge.board m.cartridge.banks next.cartridge.board next.cartridge.banks := by
  cases e with
  | write addr value =>
    obtain ⟨written, hwritten, heq⟩ := Fault.bind_eq_ok_iff.mp h
    cases heq
    obtain ⟨reply, wram, banks, hreply, hbanks, heq⟩ := Cartridge.write_eq_ok hwritten
    rw [heq]
    exact ⟨reply, hreply, hbanks, rfl⟩
  | read addr =>
    obtain ⟨value, _, heq⟩ := Fault.bind_eq_ok_iff.mp h
    cases heq
    exact ⟨rfl, rfl⟩
  | writeVideo addr value =>
    obtain ⟨video, _, heq⟩ := Fault.bind_eq_ok_iff.mp h
    cases heq
    exact ⟨rfl, rfl⟩
  | readVideo addr =>
    obtain ⟨⟨value, c⟩, hread, heq⟩ := Fault.bind_eq_ok_iff.mp h
    cases heq
    obtain ⟨_, banks, hbanks, rfl⟩ := Cartridge.readVideo_eq_ok_iff.mp hread
    exact ⟨hbanks, rfl⟩
  | clock =>
    obtain ⟨c, hclock, heq⟩ := Fault.bind_eq_ok_iff.mp h
    cases heq
    obtain ⟨board, hboard, heq⟩ := Fault.bind_eq_ok_iff.mp hclock
    cases heq
    exact ⟨hboard, rfl⟩
  | scanline =>
    obtain ⟨c, hscanline, heq⟩ := Fault.bind_eq_ok_iff.mp h
    cases heq
    obtain ⟨board, hboard, heq⟩ := Fault.bind_eq_ok_iff.mp hscanline
    cases heq
    exact ⟨hboard, rfl⟩
  | acknowledge =>
    cases h
    exact ⟨rfl, rfl⟩

/-- Pattern memory is what was loaded, whatever is done; a snapshot carries no image. -/
theorem Machine.perform_chr {m next : Machine} {command : Command} {answer : Answer}
    (h : m.perform command = .ok (next, answer)) : next.cartridge.chr = m.cartridge.chr := by
  cases command with
  | event e =>
    cases e with
    | write addr value =>
      obtain ⟨written, hwritten, heq⟩ := Fault.bind_eq_ok_iff.mp h
      cases heq
      obtain ⟨reply, wram, banks, _, _, heq⟩ := Cartridge.write_eq_ok hwritten
      rw [heq]
    | readVideo addr =>
      obtain ⟨⟨value, c⟩, hread, heq⟩ := Fault.bind_eq_ok_iff.mp h
      cases heq
      obtain ⟨_, banks, _, rfl⟩ := Cartridge.readVideo_eq_ok_iff.mp hread
      rfl
    | clock =>
      obtain ⟨c, hclock, heq⟩ := Fault.bind_eq_ok_iff.mp h
      cases heq
      obtain ⟨board, _, heq⟩ := Fault.bind_eq_ok_iff.mp hclock
      cases heq
      rfl
    | scanline =>
      obtain ⟨c, hscanline, heq⟩ := Fault.bind_eq_ok_iff.mp h
      cases heq
      obtain ⟨board, _, heq⟩ := Fault.bind_eq_ok_iff.mp hscanline
      cases heq
      rfl
    | acknowledge =>
      cases h
      rfl
    | read addr =>
      obtain ⟨value, _, heq⟩ := Fault.bind_eq_ok_iff.mp h
      cases heq
      rfl
    | writeVideo addr value =>
      obtain ⟨video, _, heq⟩ := Fault.bind_eq_ok_iff.mp h
      cases heq
      rfl
  | loadSave data =>
    unfold perform at h
    simp only at h
    split at h
    · rename_i loaded hloaded
      cases h
      rw [Cartridge.loadSaveRam_eq_ok hloaded]
    · cases h
      rfl
  | restore s =>
    obtain ⟨⟨value, notes⟩, hrestore, hopened⟩ := Fault.bind_eq_ok_iff.mp h
    cases value with
    | ok c' =>
      cases hopened
      obtain ⟨fresh, banks, _, _, rfl⟩ := Cartridge.restore_eq_ok hrestore
      rfl
    | error e =>
      cases hopened
      rfl

theorem Machine.run_chr {m last : Machine} {commands : List Command} {seen : List Observation}
    (h : m.run commands = .ok (last, seen)) : last.cartridge.chr = m.cartridge.chr := by
  induction commands generalizing m seen with
  | nil =>
    cases h
    rfl
  | cons command rest ih =>
    obtain ⟨next, answer, later, hperform, hrest, _⟩ := run_cons_iff.mp h
    exact (ih hrest).trans (perform_chr hperform)

/-- The relation holds at power-on, and everything that changes registers or banks keeps it. -/
structure Persists (d : Descriptor) (P : Board → Banks → Prop) : Prop where
  start : ∀ {k : BoardKind} {reply : Reply Board} {plain banks : Banks},
    k.start? d = some reply → Banks.powerOn d k.layout = .ok plain →
    plain.applyAll reply.selects = .ok banks → P reply.registers banks
  write : ∀ {board : Board} {banks banks' : Banks} {addr : UInt16} {value : UInt8}
    {reply : Reply Board},
    P board banks → board.write addr value = .ok reply →
    banks.applyAll reply.selects = .ok banks' → P reply.registers banks'
  afterRead : ∀ {board : Board} {banks banks' : Banks} {addr : Nat},
    P board banks → banks.applyAll (board.afterRead addr).selects = .ok banks' →
    P (board.afterRead addr).registers banks'
  clock : ∀ {board board' : Board} {banks : Banks},
    P board banks → board.clock = .ok board' → P board' banks
  scanline : ∀ {board board' : Board} {banks : Banks},
    P board banks → board.scanline = .ok board' → P board' banks
  acknowledge : ∀ {board : Board} {banks : Banks}, P board banks → P board.acknowledge banks

namespace Persists

variable {d : Descriptor} {P : Board → Banks → Prop}

theorem effect (hP : Persists d P) {e : Event} {board board' : Board} {banks banks' : Banks}
    (h : P board banks) (heffect : e.Effect board banks board' banks') : P board' banks' := by
  cases e with
  | write addr value =>
    obtain ⟨reply, hreply, hbanks, rfl⟩ := heffect
    exact hP.write h hreply hbanks
  | readVideo addr =>
    obtain ⟨hbanks, rfl⟩ := heffect
    exact hP.afterRead h hbanks
  | clock =>
    obtain ⟨hboard, rfl⟩ := heffect
    exact hP.clock h hboard
  | scanline =>
    obtain ⟨hboard, rfl⟩ := heffect
    exact hP.scanline h hboard
  | acknowledge =>
    obtain ⟨rfl, rfl⟩ := heffect
    exact hP.acknowledge h
  | read addr =>
    obtain ⟨rfl, rfl⟩ := heffect
    exact h
  | writeVideo addr value =>
    obtain ⟨rfl, rfl⟩ := heffect
    exact h

theorem load (hP : Persists d P) {prg chr : Memory} {c : Cartridge} {notes : List Note}
    (h : Cartridge.load d prg chr = .ok { value := .ok c, notes }) : P c.board c.banks := by
  obtain ⟨_, _, _, ⟨found, hfound⟩, _⟩ := Cartridge.load_eq_ok h
  obtain ⟨k, reply, plain, hstart, hplain, hbanks, hboard⟩ :=
    Registry.configureFrom_eq_some hfound
  rw [hboard]
  exact hP.start hstart hplain hbanks

theorem reachable (hP : Persists d P) {c : Cartridge} (hc : c.Reachable d) :
    P c.board c.banks := by
  induction hc with
  | load h => exact hP.load h
  | step _ h ih => exact hP.effect ih (Machine.step_effect h)
  | loadSave _ h ih =>
    rw [Cartridge.loadSaveRam_eq_ok h]
    exact ih
  | @restore c c' source notes hc hsource h _ ih =>
    obtain ⟨taken, hrestore⟩ := hsource.wellFormed.exists_restore_snapshot hc.wellFormed
    rw [hrestore] at h
    cases h
    exact ih

end Persists

end GamePak
