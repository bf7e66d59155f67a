import GamePak.Proofs.Interrupts

/-!
Histories. What becomes of the registers in a run is told by the commands alone, so that a run of a
reachable machine can be followed on its board, which takes a write, notices a read, a cycle or a
scanline, or ignores the command. Of the commands it is then often enough to know which bytes they
write where, and how many cycles and scanlines there are among them. Every reachable cartridge has
such a past; a snapshot that it took brings the past of its source.
-/

namespace GamePak

variable {d : Descriptor}

namespace Command

/-- What a command makes of registers; a snapshot that is taken brings its own and is left out. -/
def Moves (command : Command) (b b' : Board) : Prop :=
  match command with
  | event (.write addr value) => ∃ reply, b.write addr value = .ok reply ∧ b' = reply.registers
  | event (.readVideo addr) => b' = (b.afterRead (Cartridge.videoAddress addr)).registers
  | event .clock => b.clock = .ok b'
  | event .scanline => b.scanline = .ok b'
  | _ => b' = b

/-- The byte that a command writes at one of these addresses. -/
def written? (place : UInt16 → Prop) [DecidablePred place] : Command → Option UInt8
  | event (.write addr value) => if place addr then some value else none
  | _ => none

/-- The bytes that commands write at these addresses, first to last. -/
def written (place : UInt16 → Prop) [DecidablePred place] (commands : List Command) : List UInt8 :=
  commands.filterMap (written? place)

/-- The last byte that commands write at these addresses, or zero. -/
def lastWritten (place : UInt16 → Prop) [DecidablePred place] (commands : List Command) : UInt8 :=
  (written place commands).getLast?.getD 0

def isClock : Command → Bool
  | event .clock => true
  | _ => false

def isScanline : Command → Bool
  | event .scanline => true
  | _ => false

/-- The cycles among commands. -/
def clocks (commands : List Command) : Nat := commands.countP isClock

/-- The scanlines among commands. -/
def scanlines (commands : List Command) : Nat := commands.countP isScanline

section

variable {place : UInt16 → Prop} [DecidablePred place] {command : Command} {rest : List Command}

theorem written_eq_nil_iff {commands : List Command} :
    written place commands = [] ↔ ∀ command ∈ commands, command.written? place = none :=
  List.filterMap_eq_nil_iff

theorem written_cons : written place (command :: rest) =
    (command.written? place).toList ++ written place rest := by
  unfold written
  rw [List.filterMap_cons]
  cases command.written? place <;> rfl

theorem getLast?_written_cons : (written place (command :: rest)).getLast? =
    (written place rest).getLast?.or (command.written? place) := by
  rw [written_cons, List.getLast?_append]
  cases command.written? place <;> rfl

theorem getLast?_written_concat {past : List Command} :
    (written place (past ++ [command])).getLast? =
      (command.written? place).or (written place past).getLast? := by
  unfold written
  rw [List.filterMap_append, List.getLast?_append, List.filterMap_cons]
  cases command.written? place <;> rfl

theorem lastWritten_concat {past : List Command} : lastWritten place (past ++ [command]) =
    (command.written? place).getD (lastWritten place past) := by
  unfold lastWritten
  rw [getLast?_written_concat]
  cases command.written? place <;> rfl

theorem lastWritten_write {past : List Command} {addr : UInt16} {value : UInt8} :
    lastWritten place (past ++ [event (.write addr value)]) =
      if place addr then value else lastWritten place past := by
  rw [lastWritten_concat, written?]
  split <;> rfl

theorem written_cons_eq_nil (h : written place (command :: rest) = []) :
    command.written? place = none ∧ written place rest = [] := by
  have hnone := written_eq_nil_iff.mp h
  exact ⟨hnone command (List.mem_cons_self ..),
    written_eq_nil_iff.mpr fun later hlater => hnone later (List.mem_cons_of_mem _ hlater)⟩

theorem not_place_of_written? {addr : UInt16} {value : UInt8}
    (h : (event (.write addr value)).written? place = none) : ¬ place addr := by
  intro hplace
  rw [written?, if_pos hplace] at h
  cases h

end

/-- What is soldered on the board stays. -/
theorem Moves.soldered {b b' : Board} {command : Command} (h : command.Moves b b') :
    b'.soldered = b.soldered := by
  cases command with
  | restore s => exact congrArg Board.soldered h
  | loadSave data => exact congrArg Board.soldered h
  | event e =>
    cases e with
    | write addr value =>
      obtain ⟨reply, hreply, rfl⟩ := h
      exact Board.write_soldered hreply
    | readVideo addr => exact (congrArg Board.soldered h).trans (b.afterRead_soldered _)
    | clock => exact Board.clock_soldered h
    | scanline => exact Board.scanline_soldered h
    | _ => exact congrArg Board.soldered h

theorem Moves.kind {b b' : Board} {command : Command} (h : command.Moves b b') :
    b'.kind = b.kind := by
  rw [← b'.soldered_kind, h.soldered, b.soldered_kind]

end Command

namespace Board

variable {b b' : Board} {command : Command}

/-- The command is nothing to the board. -/
def Ignores (b : Board) : Command → Prop
  | .event (.write ..) => False
  | .event (.readVideo _) => b.kind ≠ .mmc2
  | .event .clock => b.kind = .mmc3 ∨ b.timer? = none
  | .event .scanline => b.kind ≠ .mmc3
  | _ => True

theorem Ignores.written? (h : b.Ignores command) (place : UInt16 → Prop) [DecidablePred place] :
    command.written? place = none := by
  cases command with
  | event e =>
    cases e with
    | write addr value => exact h.elim
    | _ => rfl
  | _ => rfl

theorem Ignores.isClock (h : b.Ignores command) (hkind : b.kind ≠ .mmc3) {t : Timer}
    (ht : b.timer? = some t) : command.isClock = false := by
  cases command with
  | event e =>
    cases e with
    | clock =>
      rcases h with h | h
      · exact absurd h hkind
      · rw [ht] at h
        cases h
    | _ => rfl
  | _ => rfl

theorem Ignores.isScanline (h : b.Ignores command) (hkind : b.kind = .mmc3) :
    command.isScanline = false := by
  cases command with
  | event e =>
    cases e with
    | scanline => exact absurd hkind h
    | _ => rfl
  | _ => rfl

/-- What a command makes of a board, told by the board: any board takes a write, the MMC2 notices
what the picture unit reads, the MMC3 counts scanlines and the other timers cycles. -/
inductive Reacts (b b' : Board) : Command → Prop where
  | write {addr : UInt16} {value : UInt8} {reply : Reply Board}
      (h : b.write addr value = .ok reply) (heq : b' = reply.registers) :
      Reacts b b' (.event (.write addr value))
  | read {addr : UInt16} (hkind : b.kind = .mmc2)
      (heq : b' = (b.afterRead (Cartridge.videoAddress addr)).registers) :
      Reacts b b' (.event (.readVideo addr))
  | clock {t t' : Timer} {rolled : Bool} (hkind : b.kind ≠ .mmc3) (ht : b.timer? = some t)
      (h : t.clock = .ok (rolled, t')) (heq : b' = b.mapTimer fun _ => t') :
      Reacts b b' (.event .clock)
  | scanline (hkind : b.kind = .mmc3) (h : b.scanline = .ok b') : Reacts b b' (.event .scanline)
  | ignored {command : Command} (h : b.Ignores command) (heq : b' = b) : Reacts b b' command

end Board

/-- A move of any board is one of these. -/
theorem Command.Moves.reacts {b b' : Board} {command : Command} (h : command.Moves b b') :
    b.Reacts b' command := by
  cases command with
  | restore s => exact .ignored trivial h
  | loadSave data => exact .ignored trivial h
  | event e =>
    cases e with
    | write addr value =>
      obtain ⟨reply, hreply, hboard⟩ := h
      exact .write hreply hboard
    | readVideo addr =>
      by_cases hkind : b.kind = .mmc2
      · exact .read hkind h
      · have hboard : b' = (b.afterRead (Cartridge.videoAddress addr)).registers := h
        rw [Board.afterRead_of_ne hkind] at hboard
        exact .ignored hkind hboard
    | clock =>
      rcases Board.clock_cases h with ⟨hboard, hidle⟩ | ⟨hkind, t, rolled, t', ht, hclock, hboard⟩
      · exact .ignored hidle hboard
      · exact .clock hkind ht hclock hboard
    | scanline =>
      by_cases hkind : b.kind = .mmc3
      · exact .scanline hkind h
      · have hboard : b.scanline = .ok b' := h
        rw [Board.scanline_of_ne hkind] at hboard
        exact .ignored hkind (Except.ok.inj hboard).symm
    | _ => exact .ignored trivial h

/-- The board turns into the other as the commands go by. -/
def Board.Passes (b : Board) : List Command → Board → Prop
  | [], b' => b' = b
  | command :: rest, b' => ∃ next, command.Moves b next ∧ next.Passes rest b'

theorem Board.passes_append {b b' : Board} {before later : List Command} :
    b.Passes (before ++ later) b' ↔ ∃ next, b.Passes before next ∧ next.Passes later b' := by
  induction before generalizing b with
  | nil => exact ⟨fun h => ⟨b, rfl, h⟩, fun ⟨_, heq, h⟩ => heq ▸ h⟩
  | cons command rest ih =>
    constructor
    · rintro ⟨first, hmoves, hpasses⟩
      obtain ⟨next, hrest, hlater⟩ := ih.mp hpasses
      exact ⟨next, ⟨first, hmoves, hrest⟩, hlater⟩
    · rintro ⟨next, ⟨first, hmoves, hrest⟩, hlater⟩
      exact ⟨first, hmoves, ih.mpr ⟨next, hrest, hlater⟩⟩

/-- What holds of a board and a number is kept by a run without writes at some addresses, where the
number counts commands of a sort, if every command of the run keeps it. -/
theorem Board.Passes.keeps {b b' : Board} {commands : List Command} (h : b.Passes commands b')
    {place : UInt16 → Prop} [DecidablePred place] (hquiet : Command.written place commands = [])
    {counts : Command → Bool} {P : Nat → Board → Prop}
    (hstep : ∀ {n : Nat} {b b' : Board} {command : Command}, P n b →
      command.written? place = none → command.Moves b b' →
        P (n + if counts command then 1 else 0) b')
    {n : Nat} (hP : P n b) : P (n + commands.countP counts) b' := by
  induction commands generalizing b n with
  | nil =>
    cases h
    exact hP
  | cons command rest ih =>
    obtain ⟨next, hmoves, hpasses⟩ := h
    obtain ⟨hfirst, hrest⟩ := Command.written_cons_eq_nil hquiet
    have hlast := ih hpasses hrest (hstep hP hfirst hmoves)
    rw [List.countP_cons]
    rw [Nat.add_right_comm, Nat.add_assoc] at hlast
    exact hlast

namespace Cartridge

variable {c e : Cartridge}

/-- The cartridge does not take the snapshot. -/
def Refuses (c : Cartridge) (s : Snapshot) : Prop :=
  ∀ c' notes, c.restore s ≠ .ok { value := .ok c', notes }

/-- The cartridge takes none of the snapshots among the commands. -/
def TakesNone (c : Cartridge) (commands : List Command) : Prop :=
  ∀ s, .restore s ∈ commands → c.Refuses s

/-- What one cartridge refuses every other of its descriptor refuses. -/
theorem WellFormed.refuses (hc : c.WellFormed d) (he : e.WellFormed d) {s : Snapshot}
    (h : c.Refuses s) : e.Refuses s := by
  intro e' notes hrestore
  obtain ⟨fresh, banks, hfound, hsuits, _⟩ := restore_eq_ok hrestore
  have hdescriptor : e.descriptor = c.descriptor := he.descriptor.trans hc.descriptor.symm
  have hwram : e.wram.size = c.wram.size := he.wram_size.trans hc.wram_size.symm
  rw [hdescriptor] at hfound
  exact h _ _ (restore_of_suits hfound { hsuits with
    descriptor := hsuits.descriptor.trans hdescriptor
    wram := hsuits.wram.trans hwram })

end Cartridge

namespace Machine

variable {m next last : Machine}

theorem perform_refused {s : Snapshot} {answer : Answer} (h : m.cartridge.Refuses s)
    (hperform : m.perform (.restore s) = .ok (next, answer)) : next = m := by
  obtain ⟨⟨value, notes⟩, hrestore, hopened⟩ := Fault.bind_eq_ok_iff.mp hperform
  cases value with
  | ok c' => exact absurd hrestore (h c' notes)
  | error e =>
    cases hopened
    rfl

/-- The processor's own acknowledgement is no move, since every board waits for a write. -/
theorem perform_moves (hm : m.cartridge.Reachable d) {command : Command} {answer : Answer}
    (h : m.perform command = .ok (next, answer))
    (hcommand : ∀ s, command = .restore s → m.cartridge.Refuses s) :
    command.Moves m.cartridge.board next.cartridge.board := by
  cases command with
  | restore s => exact congrArg (·.cartridge.board) (perform_refused (hcommand s rfl) h)
  | loadSave data =>
    unfold perform at h
    simp only at h
    split at h
    · rename_i loaded hloaded
      cases h
      rw [Cartridge.loadSaveRam_eq_ok hloaded]
      rfl
    · cases h
      rfl
  | event e =>
    have heffect := step_effect h
    cases e with
    | write addr value =>
      obtain ⟨reply, hreply, _, hboard⟩ := heffect
      exact ⟨reply, hreply, hboard⟩
    | readVideo addr => exact heffect.2
    | clock => exact heffect.1
    | scanline => exact heffect.1
    | acknowledge => exact heffect.1.trans hm.wired.acknowledge_eq
    | read addr => exact heffect.1
    | writeVideo addr value => exact heffect.1

theorem perform_untaken (hm : m.cartridge.Reachable d) {command : Command} {answer : Answer}
    (h : m.perform command = .ok (next, answer))
    (hcommand : ∀ s, command = .restore s → m.cartridge.Refuses s) :
    next.cartridge.Reachable d := by
  by_cases hrestore : ∃ s, command = .restore s
  · obtain ⟨s, rfl⟩ := hrestore
    rw [perform_refused (hcommand s rfl) h]
    exact hm
  · exact perform_reachable hm h fun s heq => hrestore ⟨s, heq⟩

/-- Every run goes through, and can be followed on the board if no snapshot is taken in it. -/
theorem exists_passing_run (hm : m.cartridge.Reachable d) (hvideo : m.video.Fits d)
    {commands : List Command} (hcommands : m.cartridge.TakesNone commands) :
    ∃ last seen, m.run commands = .ok (last, seen) ∧ last.cartridge.Reachable d ∧
      last.video.Fits d ∧ m.cartridge.board.Passes commands last.cartridge.board := by
  induction commands generalizing m with
  | nil => exact ⟨m, [], rfl, hm, hvideo, rfl⟩
  | cons command rest ih =>
    have hcommand : ∀ s, command = .restore s → m.cartridge.Refuses s := by
      rintro s rfl
      exact hcommands s (List.mem_cons_self ..)
    obtain ⟨next, answer, hperform, hnext⟩ := exists_perform ⟨hm.wellFormed, hvideo⟩ command
    have hreachable := perform_untaken hm hperform hcommand
    obtain ⟨last, seen, hrun, hlast, hfits, hpasses⟩ := ih hreachable hnext.video
      fun s hs => hm.wellFormed.refuses hreachable.wellFormed
        (hcommands s (List.mem_cons_of_mem _ hs))
    exact ⟨last, next.observe answer :: seen,
      run_cons_iff.mpr ⟨next, answer, seen, hperform, hrun, rfl⟩, hlast, hfits,
      next.cartridge.board, perform_moves hm hperform hcommand, hpasses⟩

end Machine

namespace Cartridge

/-- The cartridge has come of these commands since it was loaded; a snapshot that it took, of a
cartridge that had come of others, puts these in the place of its own. -/
inductive CameOf (d : Descriptor) : Cartridge → List Command → Prop where
  | load {prg chr : Memory} {c : Cartridge} {notes : List Note}
      (h : Cartridge.load d prg chr = .ok { value := .ok c, notes }) : CameOf d c []
  | perform {m next : Machine} {past : List Command} {command : Command} {answer : Answer}
      (hm : CameOf d m.cartridge past) (h : m.perform command = .ok (next, answer))
      (hcommand : ∀ s, command = .restore s → m.cartridge.Refuses s) :
      CameOf d next.cartridge (past ++ [command])
  | restore {c c' source : Cartridge} {own past : List Command} {notes : List Note}
      (hc : CameOf d c own) (hsource : CameOf d source past)
      (h : c.restore source.snapshot = .ok { value := .ok c', notes }) : CameOf d c' past

variable {c : Cartridge} {past : List Command}

theorem CameOf.reachable (h : c.CameOf d past) : c.Reachable d := by
  induction h with
  | load h => exact .load h
  | perform _ h hcommand ih => exact Machine.perform_untaken ih h hcommand
  | restore _ _ h ih ihsource => exact .restore ih ihsource h

theorem Reachable.exists_cameOf (hc : c.Reachable d) : ∃ past, c.CameOf d past := by
  induction hc with
  | load h => exact ⟨[], .load h⟩
  | @step m next e answer _ h ih =>
    obtain ⟨past, hpast⟩ := ih
    have hperform : m.perform (.event e) = .ok (next, answer) := h
    exact ⟨past ++ [.event e], .perform hpast hperform (by simp)⟩
  | @loadSave c c' data _ h ih =>
    obtain ⟨past, hpast⟩ := ih
    have hperform : Machine.perform { cartridge := c, video := .cleared d } (.loadSave data) =
        .ok ({ cartridge := c', video := .cleared d }, .done) := by
      simp only [Machine.perform, h]
      rfl
    exact ⟨past ++ [.loadSave data],
      .perform (m := { cartridge := c, video := .cleared d }) hpast hperform (by simp)⟩
  | restore _ _ h ih ihsource =>
    obtain ⟨own, hown⟩ := ih
    obtain ⟨past, hpast⟩ := ihsource
    exact ⟨past, .restore hown hpast h⟩

/-- What holds of every board at its start, and of a past and a board still with one more command,
holds of every cartridge and its past. -/
theorem CameOf.keeps {P : List Command → Board → Prop}
    (hstart : ∀ {k : BoardKind} {reply : Reply Board}, k.start? d = some reply →
      P [] reply.registers)
    (hmoves : ∀ {past : List Command} {command : Command} {b b' : Board}, P past b →
      command.Moves b b' → P (past ++ [command]) b')
    (h : c.CameOf d past) : P past c.board := by
  induction h with
  | load h =>
    obtain ⟨_, _, _, ⟨found, hfound⟩, _⟩ := load_eq_ok h
    obtain ⟨k, reply, plain, hreply, _, _, hboard⟩ := Registry.configureFrom_eq_some hfound
    rw [hboard]
    exact hstart hreply
  | perform hm h hcommand ih => exact hmoves ih (Machine.perform_moves hm.reachable h hcommand)
  | @restore c c' source own past notes hc hsource h _ ih =>
    obtain ⟨taken, hrestore⟩ :=
      hsource.reachable.wellFormed.exists_restore_snapshot hc.reachable.wellFormed
    rw [hrestore] at h
    cases h
    exact ih

/-- The same for the registers of one chip, among boards of its kind only. -/
theorem CameOf.keeps_chip {k : BoardKind} {P : List Command → k.Registers → Prop}
    (hstart : ∀ {reply : Reply Board} {r : k.Registers}, k.start? d = some reply →
      reply.registers = k.board r → P [] r)
    (hmoves : ∀ {past : List Command} {command : Command} {r r' : k.Registers}, P past r →
      command.Moves (k.board r) (k.board r') → P (past ++ [command]) r')
    (h : c.CameOf d past) {r : k.Registers} (hboard : c.board = k.board r) : P past r := by
  refine h.keeps (P := fun past b => ∀ r, b = k.board r → P past r) ?_ ?_ r hboard
  · intro other reply hreply r hr
    have hkind := (BoardKind.start_keeps hreply).kind
    rw [hr, k.kind_board] at hkind
    subst hkind
    exact hstart hreply hr
  · intro past command b b' hP hcommand r' hr'
    subst hr'
    obtain ⟨r, rfl⟩ := Board.exists_of_kind (hcommand.kind.symm.trans (k.kind_board r'))
    exact hmoves (hP r rfl) hcommand

theorem CameOf.exists_write (hc : c.CameOf d past) (addr : UInt16) (value : UInt8) :
    ∃ written, c.write addr value = .ok written ∧
      written.value.CameOf d (past ++ [.event (.write addr value)]) := by
  obtain ⟨written, hwritten, _⟩ := hc.reachable.wellFormed.exists_write addr value
  have hperform : Machine.perform { cartridge := c, video := .cleared d }
      (.event (.write addr value)) =
        .ok ({ cartridge := written.value, video := .cleared d }, .done) :=
    Fault.bind_eq_ok_iff.mpr ⟨written, hwritten, rfl⟩
  exact ⟨written, hwritten,
    .perform (m := { cartridge := c, video := .cleared d }) hc hperform (by simp)⟩

end Cartridge

/-- A run adds its commands to the past. -/
theorem Machine.exists_run_cameOf {m : Machine} {past commands : List Command}
    (hm : m.cartridge.CameOf d past) (hvideo : m.video.Fits d)
    (hcommands : m.cartridge.TakesNone commands) :
    ∃ last seen, m.run commands = .ok (last, seen) ∧
      last.cartridge.CameOf d (past ++ commands) ∧ last.video.Fits d := by
  induction commands generalizing m past with
  | nil => exact ⟨m, [], rfl, (List.append_nil past).symm ▸ hm, hvideo⟩
  | cons command rest ih =>
    have hcommand : ∀ s, command = .restore s → m.cartridge.Refuses s := by
      rintro s rfl
      exact hcommands s (List.mem_cons_self ..)
    obtain ⟨next, answer, hperform, hnext⟩ :=
      exists_perform ⟨hm.reachable.wellFormed, hvideo⟩ command
    have hcame : next.cartridge.CameOf d (past ++ [command]) := .perform hm hperform hcommand
    obtain ⟨last, seen, hrun, hlast, hfits⟩ := ih hcame hnext.video
      fun s hs => hm.reachable.wellFormed.refuses hcame.reachable.wellFormed
        (hcommands s (List.mem_cons_of_mem _ hs))
    rw [List.append_assoc] at hlast
    exact ⟨last, next.observe answer :: seen,
      run_cons_iff.mpr ⟨next, answer, seen, hperform, hrun, rfl⟩, hlast, hfits⟩

end GamePak
