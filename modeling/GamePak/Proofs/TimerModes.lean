import GamePak.Proofs.Interleaving
import GamePak.Proofs.Vrc2

/-!
How timers count. Most timers have no choice: they count every cycle and drive the line. Only the
VRC4 has a register bit that puts the prescaler in between, and only the FME-7 one that keeps the
counter from the line. Since a fresh timer counts every cycle and drives the line, so does every
timer of a reachable cartridge whose chip cannot tell it otherwise.
-/

namespace GamePak

variable {d : Descriptor}

/-- What a timer counts, and whether it drives the line. -/
def Timer.manner (t : Timer) : Timer.Mode × Bool := (t.mode, t.output)

theorem Timer.steady_none : ∀ t ∈ (none : Option Timer), t.manner = (.cycle, true) := by
  simp

theorem Timer.steady_some {t : Timer} (h : t.manner = (.cycle, true)) :
    ∀ u ∈ some t, u.manner = (.cycle, true) := by
  rintro u ⟨⟩
  exact h

theorem Mmc3.write_manner (r : Mmc3) (addr : Nat) (value : UInt8) :
    (r.write addr value).registers.timer.manner = r.timer.manner := by
  unfold write writeEven writeOdd
  repeat' split
  all_goals rfl

theorem Fcg.write_manner (r : Fcg) (addr : Nat) (value : UInt8) :
    (r.write addr value).registers.timer.manner = r.timer.manner := by
  unfold write writeEnable writeLow writeHigh
  simp only
  repeat' split
  all_goals rfl

theorem Vrc3.write_manner (r : Vrc3) (addr : Nat) (value : UInt8) :
    (r.write addr value).registers.timer.manner = r.timer.manner := by
  unfold write writeLatch writeControl Timer.writeControl
  simp only
  repeat' split
  all_goals rfl

theorem Fme7.write_mode (r : Fme7) (addr : Nat) (value : UInt8) :
    (r.write addr value).registers.timer.mode = r.timer.mode := by
  unfold write parameter writeWorkArea writeSwitches
  repeat' split
  all_goals rfl

namespace Board

/-- A timer counts every cycle, unless it is that of a VRC4, and drives the line, unless it is that
of an FME-7; that the VRC4 drives the line is part of `Settled`. -/
def Steady : Board → Prop
  | vrc4 _ => True
  | fme7 r => r.timer.mode = .cycle
  | b => ∀ t ∈ b.timer?, t.manner = (.cycle, true)

theorem still_steady (b : Board) : b.still.Steady ↔ b.Steady := by
  cases b <;> simp [still, mapTimer, Steady, timer?, Timer.still, Timer.manner]

theorem Steady.pulse {b b' : Board} {p : Pulse} (h : b.Steady) (hpulse : b.pulse p = .ok b') :
    b'.Steady := by
  rw [← still_steady, pulse_still hpulse, still_steady]
  exact h

end Board

theorem steady_persists : Persists d fun board _ => board.Steady where
  start := by
    intro k reply plain banks hstart _ _
    cases k with
    | mmc3 =>
      obtain ⟨own, hown, rfl⟩ := Option.map_eq_some_iff.mp hstart
      obtain ⟨_, r, rfl, rfl⟩ := Mmc3.start?_eq_some hown
      exact Timer.steady_some rfl
    | fcg =>
      obtain ⟨own, hown, rfl⟩ := Option.map_eq_some_iff.mp hstart
      obtain ⟨_, rfl⟩ := Fcg.start?_eq_some hown
      exact Timer.steady_some rfl
    | fme7 =>
      obtain ⟨own, hown, rfl⟩ := Option.map_eq_some_iff.mp hstart
      obtain ⟨_, rfl⟩ := Fme7.start?_eq_some hown
      rfl
    | vrc3 =>
      obtain ⟨own, hown, rfl⟩ := Option.map_eq_some_iff.mp hstart
      obtain ⟨_, rfl⟩ := Vrc3.start?_eq_some hown
      exact Timer.steady_some rfl
    | vrc4 =>
      obtain ⟨own, _, rfl⟩ := Option.map_eq_some_iff.mp hstart
      trivial
    | _ =>
      obtain ⟨own, _, rfl⟩ := Option.map_eq_some_iff.mp hstart
      exact Timer.steady_none
  write := by
    intro board banks banks' addr value reply h hreply _
    cases board with
    | mmc1 r =>
      obtain ⟨own, _, heq⟩ := Fault.bind_eq_ok_iff.mp hreply
      cases heq
      exact Timer.steady_none
    | mmc3 r =>
      cases hreply
      exact Timer.steady_some ((r.write_manner addr.toNat value).trans (h r.timer rfl))
    | fcg r =>
      cases hreply
      exact Timer.steady_some ((r.write_manner addr.toNat value).trans (h r.timer rfl))
    | fme7 r =>
      cases hreply
      exact (r.write_mode addr.toNat value).trans h
    | vrc3 r =>
      cases hreply
      exact Timer.steady_some ((r.write_manner addr.toNat value).trans (h r.timer rfl))
    | vrc4 r =>
      cases hreply
      trivial
    | _ =>
      cases hreply
      exact Timer.steady_none
  afterRead := by
    intro board banks banks' addr h _
    cases board <;> exact h
  clock := fun h hclock => h.pulse (p := .clock) hclock
  scanline := fun h hscanline => h.pulse (p := .scanline) hscanline
  acknowledge := fun h => h.pulse (p := .acknowledge) rfl

theorem Cartridge.Reachable.steady {c : Cartridge} (hc : c.Reachable d) : c.board.Steady :=
  steady_persists.reachable hc

end GamePak
