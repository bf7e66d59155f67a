import GamePak.Snapshot

/-!
Machines: a cartridge together with the video memory that the picture unit lends it. Events are
what the console does to the pair; commands are events and what the owner of the cartridge may do
besides, loading save RAM and restoring snapshots. A run is a list of commands, and what can be
seen of it is the answer to each command, the interrupt line and the arrangement of the nametables
after it.
-/

namespace GamePak

structure Machine where
  cartridge : Cartridge
  video : VideoMemory

inductive Event where
  | write (addr : UInt16) (value : UInt8)
  | read (addr : UInt16)
  | writeVideo (addr : UInt16) (value : UInt8)
  | readVideo (addr : UInt16)
  | clock
  | scanline
  | acknowledge

inductive Command where
  | event (e : Event)
  | loadSave (data : Memory)
  | restore (s : Snapshot)

inductive Answer where
  | done
  | byte (value : UInt8)
  | saveRefused (e : LoadError)
  | snapshotRefused (e : RestoreError)

/-- What can be seen of a machine after a command. -/
structure Observation where
  answer : Answer
  irqPending : Bool
  mirroring : Mirroring

namespace Machine

def step (m : Machine) : Event → Except Fault (Machine × Answer)
  | .write addr value => do
    let written ← m.cartridge.write addr value
    return ({ m with cartridge := written.value }, .done)
  | .read addr => do
    let value ← m.cartridge.read addr
    return (m, .byte value)
  | .writeVideo addr value => do
    let video ← m.cartridge.writeVideo m.video addr value
    return ({ m with video }, .done)
  | .readVideo addr => do
    let (value, cartridge) ← m.cartridge.readVideo m.video addr
    return ({ m with cartridge }, .byte value)
  | .clock => do
    let cartridge ← m.cartridge.clock
    return ({ m with cartridge }, .done)
  | .scanline => do
    let cartridge ← m.cartridge.scanline
    return ({ m with cartridge }, .done)
  | .acknowledge => return ({ m with cartridge := m.cartridge.acknowledge }, .done)

/-- The machine after a command; one that is refused leaves it alone. -/
def perform (m : Machine) : Command → Except Fault (Machine × Answer)
  | .event e => m.step e
  | .loadSave data =>
    match m.cartridge.loadSaveRam data with
    | .ok cartridge => return ({ m with cartridge }, .done)
    | .error e => return (m, .saveRefused e)
  | .restore s => do
    let restored ← m.cartridge.restore s
    match restored.value with
    | .ok cartridge => return ({ m with cartridge }, .done)
    | .error e => return (m, .snapshotRefused e)

def observe (m : Machine) (answer : Answer) : Observation where
  answer
  irqPending := m.cartridge.irqPending
  mirroring := m.cartridge.mirroring

/-- The machine after a list of commands, with what could be seen after each of them. -/
def run (m : Machine) : List Command → Except Fault (Machine × List Observation)
  | [] => return (m, [])
  | command :: rest => do
    let (next, answer) ← m.perform command
    let (last, seen) ← next.run rest
    return (last, next.observe answer :: seen)

theorem run_cons_iff {m last : Machine} {command : Command} {rest : List Command}
    {seen : List Observation} :
    m.run (command :: rest) = .ok (last, seen) ↔ ∃ next answer later,
      m.perform command = .ok (next, answer) ∧ next.run rest = .ok (last, later) ∧
        seen = next.observe answer :: later := by
  constructor
  · intro h
    obtain ⟨⟨next, answer⟩, hperform, h⟩ := Fault.bind_eq_ok_iff.mp h
    obtain ⟨⟨_, later⟩, hrest, heq⟩ := Fault.bind_eq_ok_iff.mp h
    cases heq
    exact ⟨next, answer, later, hperform, hrest, rfl⟩
  · rintro ⟨next, answer, later, hperform, hrest, rfl⟩
    exact Fault.bind_eq_ok_iff.mpr ⟨_, hperform, Fault.bind_eq_ok_iff.mpr ⟨_, hrest, rfl⟩⟩

end Machine

namespace Cartridge

/-- The cartridges that come of loading a descriptor and any commands whatever; the snapshots
among them need not have been taken from a cartridge. -/
inductive Driven (d : Descriptor) : Cartridge → Prop where
  | load {prg chr : Memory} {c : Cartridge} {notes : List Note}
      (h : Cartridge.load d prg chr = .ok { value := .ok c, notes }) : Driven d c
  | perform {m next : Machine} {command : Command} {answer : Answer}
      (hm : Driven d m.cartridge) (h : m.perform command = .ok (next, answer)) :
      Driven d next.cartridge

/-- The cartridges that come of loading a descriptor, events, save RAM and snapshots of cartridges
that have come about in the same way. -/
inductive Reachable (d : Descriptor) : Cartridge → Prop where
  | load {prg chr : Memory} {c : Cartridge} {notes : List Note}
      (h : Cartridge.load d prg chr = .ok { value := .ok c, notes }) : Reachable d c
  | step {m next : Machine} {e : Event} {answer : Answer}
      (hm : Reachable d m.cartridge) (h : m.step e = .ok (next, answer)) :
      Reachable d next.cartridge
  | loadSave {c c' : Cartridge} {data : Memory}
      (hc : Reachable d c) (h : c.loadSaveRam data = .ok c') : Reachable d c'
  | restore {c c' source : Cartridge} {notes : List Note}
      (hc : Reachable d c) (hsource : Reachable d source)
      (h : c.restore source.snapshot = .ok { value := .ok c', notes }) : Reachable d c'

/-- The snapshot of a cartridge that has come about is one of any. -/
theorem Reachable.driven {d : Descriptor} {c : Cartridge} (hc : c.Reachable d) : c.Driven d := by
  induction hc with
  | load h => exact .load h
  | @step m next e answer _ h ih =>
    have hperform : m.perform (.event e) = .ok (next, answer) := h
    exact .perform ih hperform
  | @loadSave c c' data _ h ih =>
    have hperform : Machine.perform { cartridge := c, video := .cleared d } (.loadSave data) =
        .ok ({ cartridge := c', video := .cleared d }, .done) := by
      simp only [Machine.perform, h]
      rfl
    exact .perform (m := { cartridge := c, video := .cleared d }) ih hperform
  | @restore c c' source notes _ _ h ih _ =>
    have hperform : Machine.perform { cartridge := c, video := .cleared d }
        (.restore source.snapshot) = .ok ({ cartridge := c', video := .cleared d }, .done) := by
      simp only [Machine.perform, h, bind, Except.bind]
      rfl
    exact .perform (m := { cartridge := c, video := .cleared d }) ih hperform

end Cartridge

end GamePak
