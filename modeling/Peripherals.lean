import Peripherals.Board.System
import Peripherals.Cache
import Peripherals.Interrupt.Masking
import Peripherals.Log.Logger
import Peripherals.Proofs.Attempts
import Peripherals.Proofs.Beginnings
import Peripherals.Proofs.Board.DiskName
import Peripherals.Proofs.Board.Input
import Peripherals.Proofs.Board.Status
import Peripherals.Proofs.Cache
import Peripherals.Proofs.Cell
import Peripherals.Proofs.Clock.Polling
import Peripherals.Proofs.Clock.Tick
import Peripherals.Proofs.Input.Assembler
import Peripherals.Proofs.Input.Fifo
import Peripherals.Proofs.Input.Grammar
import Peripherals.Proofs.Input.Joystick
import Peripherals.Proofs.Input.Reception
import Peripherals.Proofs.Input.Stream
import Peripherals.Proofs.Interrupt.Dispatch
import Peripherals.Proofs.Interrupt.Layout
import Peripherals.Proofs.Interrupt.Masks
import Peripherals.Proofs.Interrupt.Session
import Peripherals.Proofs.Interrupt.Table
import Peripherals.Proofs.Log.Buffer
import Peripherals.Proofs.Log.Format
import Peripherals.Proofs.Mailbox.Firmware
import Peripherals.Proofs.Mailbox.Messages
import Peripherals.Proofs.Mailbox.Order
import Peripherals.Proofs.Mailbox.Query
import Peripherals.Proofs.Mailbox.Records
import Peripherals.Proofs.Mailbox.RoundTrip
import Peripherals.Proofs.Mailbox.Transaction
import Peripherals.Proofs.Sd.Announcement
import Peripherals.Proofs.Sd.BusWidth
import Peripherals.Proofs.Sd.Checkpoints
import Peripherals.Proofs.Sd.ClockSwitch
import Peripherals.Proofs.Sd.Completion
import Peripherals.Proofs.Sd.ConfigurationRegister
import Peripherals.Proofs.Sd.Course
import Peripherals.Proofs.Sd.DataCommand
import Peripherals.Proofs.Sd.DataPhase
import Peripherals.Proofs.Sd.Diagnosis
import Peripherals.Proofs.Sd.Divider
import Peripherals.Proofs.Sd.FailedReset
import Peripherals.Proofs.Sd.Fallback
import Peripherals.Proofs.Sd.Fields
import Peripherals.Proofs.Sd.Forgetting
import Peripherals.Proofs.Sd.Invariant
import Peripherals.Proofs.Sd.Keeps
import Peripherals.Proofs.Sd.MediaChange
import Peripherals.Proofs.Sd.Orders
import Peripherals.Proofs.Sd.Probe
import Peripherals.Proofs.Sd.Protocol
import Peripherals.Proofs.Sd.Quiet
import Peripherals.Proofs.Sd.ReadIntegrity
import Peripherals.Proofs.Sd.Ready
import Peripherals.Proofs.Sd.Removal
import Peripherals.Proofs.Sd.RemovedCard
import Peripherals.Proofs.Sd.Reserved
import Peripherals.Proofs.Sd.Retry
import Peripherals.Proofs.Sd.Runs
import Peripherals.Proofs.Sd.Script
import Peripherals.Proofs.Sd.Stale
import Peripherals.Proofs.Sd.Sweep
import Peripherals.Proofs.Sd.Validation
import Peripherals.Proofs.Sd.Verdict
import Peripherals.Proofs.Sd.WriteIntegrity
import Peripherals.Proofs.Sd.WriteProtection
import Peripherals.Proofs.Text.Bytes
import Peripherals.Proofs.Text.Hex
import Peripherals.Proofs.Timer.Counter
import Peripherals.Proofs.Timer.Deadline
import Peripherals.Proofs.Timer.Delay
import Peripherals.Proofs.Visits
import Peripherals.Simulation.BoardBench
import Peripherals.Simulation.InputBench
import Peripherals.Simulation.InterruptBench
import Peripherals.Simulation.MailboxBench
import Peripherals.Simulation.SdBench
import Peripherals.Simulation.TimerBench
import Peripherals.Proofs.Board.Status
import Peripherals.Proofs.Text.Hex
import Peripherals.Proofs.Board.DiskName
