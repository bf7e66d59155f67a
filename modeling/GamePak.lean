import GamePak.Snapshot.Bytes
import GamePak.Proofs.Window
import GamePak.Proofs.Banks
import GamePak.Proofs.Boards
import GamePak.Proofs.Machine
import GamePak.Proofs.Registry
import GamePak.Proofs.Restore
import GamePak.Proofs.WellFormed
import GamePak.Proofs.Safety
import GamePak.Proofs.Snapshots
import GamePak.Proofs.Selections
import GamePak.Proofs.Persistence
import GamePak.Proofs.Wiring
import GamePak.Proofs.Standing
import GamePak.Proofs.ResetVector
import GamePak.Proofs.Coverage
import GamePak.Proofs.Interrupts
import GamePak.Proofs.Nametables
import GamePak.Proofs.WorkRam
import GamePak.Proofs.PatternCoverage
import GamePak.Proofs.Protection
import GamePak.Proofs.VideoMemory
import GamePak.Proofs.Interleaving
import GamePak.Proofs.Independence
import GamePak.Proofs.Candidates
import GamePak.Proofs.Rollover
import GamePak.Proofs.Prescaler
import GamePak.Proofs.Vrc2
import GamePak.Proofs.Spellings
import GamePak.Proofs.SerialPort
import GamePak.Proofs.Histories
import GamePak.Proofs.ScanlineCounter
import GamePak.Proofs.TimerModes
import GamePak.Proofs.TimerPorts
import GamePak.Proofs.KonamiTimers
import GamePak.Proofs.BankArithmetic
import GamePak.Proofs.PatternRegisters
import GamePak.Proofs.DownCounters
import GamePak.Proofs.PatternLatches
