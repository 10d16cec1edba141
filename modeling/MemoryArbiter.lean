import MemoryArbiter.Engine.Step
import MemoryArbiter.Engine.Consistency
import MemoryArbiter.Text.Blank
import MemoryArbiter.Text.Lines
import MemoryArbiter.Text.Integer
import MemoryArbiter.Text.Column
import MemoryArbiter.Binary64.Reading
import MemoryArbiter.Binary64.Writing
import MemoryArbiter.Json.Reader
import MemoryArbiter.Json.Record
import MemoryArbiter.Json.Writer
import MemoryArbiter.Script
import MemoryArbiter.Kernel.Stall
import MemoryArbiter.Kernel.Simulated
import MemoryArbiter.Killer.Tier
import MemoryArbiter.Killer.Pass
import MemoryArbiter.Killer.Monitor
import MemoryArbiter.Killer.Queue
import MemoryArbiter.Hierarchy.Record
import MemoryArbiter.Notice
import MemoryArbiter.PriorityTask
import MemoryArbiter.Arbiter.Basic
import MemoryArbiter.Arbiter.Clock
import MemoryArbiter.Toml.Reader
import MemoryArbiter.Toml.Record
import MemoryArbiter.Toml.Writer
import MemoryArbiter.Text.Quoted
import MemoryArbiter.FileTree
import MemoryArbiter.Kernel.Procfs
import MemoryArbiter.Config.Load
import MemoryArbiter.Arbiter.Start
import MemoryArbiter.Command.Status
import MemoryArbiter.Command.Doctor
import MemoryArbiter.Command.Simulate
import MemoryArbiter.Command.Daemon
import MemoryArbiter.Main
import MemoryArbiter.Proofs.Engine.Partition
import MemoryArbiter.Proofs.Engine.Recomputation
import MemoryArbiter.Proofs.Engine.History
import MemoryArbiter.Proofs.Killer.Course
import MemoryArbiter.Proofs.Killer.Recorder
import MemoryArbiter.Proofs.Killer.Safety
import MemoryArbiter.Proofs.Killer.Sweep
import MemoryArbiter.Proofs.Engine.Notes
import MemoryArbiter.Proofs.Engine.Report
import MemoryArbiter.Proofs.Engine.Mirror
import MemoryArbiter.Proofs.PriorityTask.Requests
import MemoryArbiter.Proofs.PriorityTask.Log
import MemoryArbiter.Proofs.Engine.Boosts
import MemoryArbiter.Proofs.Engine.Turnover
import MemoryArbiter.Proofs.Engine.Tokens
import MemoryArbiter.Proofs.PriorityTask.Timers
import MemoryArbiter.Proofs.PriorityTask.Clocked
import MemoryArbiter.Proofs.PriorityTask.Punctual
import MemoryArbiter.Proofs.Arbiter.Serving
import MemoryArbiter.Proofs.Arbiter.Advance
import MemoryArbiter.Proofs.Arbiter.Timely
import MemoryArbiter.Proofs.Engine.Refusal
import MemoryArbiter.Proofs.Lifecycle.Isolation
import MemoryArbiter.Proofs.Lifecycle.Levels
import MemoryArbiter.Proofs.Arbiter.Kills
import MemoryArbiter.Proofs.Engine.Range
import MemoryArbiter.Proofs.Lifecycle.Withdrawal
import MemoryArbiter.Proofs.Lifecycle.Relaunch
import MemoryArbiter.Proofs.Killer.Remains
import MemoryArbiter.Proofs.Config.ScoreRange
import MemoryArbiter.Proofs.Killer.Wakeups
import MemoryArbiter.Proofs.Engine.Redelivery
import MemoryArbiter.Proofs.Engine.Commutation
import MemoryArbiter.Proofs.Lifecycle.ClosedForm
import MemoryArbiter.Proofs.Index.Order
import MemoryArbiter.Proofs.Index.Calls
import MemoryArbiter.Proofs.Engine.Reconciliation
import MemoryArbiter.Proofs.Engine.Switching
import MemoryArbiter.Proofs.Engine.Confinement
import MemoryArbiter.Proofs.Killer.Accounts
import MemoryArbiter.Proofs.Config.Tiers
import MemoryArbiter.Proofs.Json.Blanks
import MemoryArbiter.Proofs.Script.Lines
import MemoryArbiter.Proofs.Json.Spelling
import MemoryArbiter.Proofs.Json.CodeUnits
import MemoryArbiter.Proofs.Json.Numbers
import MemoryArbiter.Proofs.Json.Scanning
import MemoryArbiter.Proofs.Json.Parsing
import MemoryArbiter.Proofs.Json.RoundTrip
import MemoryArbiter.Proofs.Json.Members
import MemoryArbiter.Proofs.Event.Line
import MemoryArbiter.Proofs.FileTree.Reading
import MemoryArbiter.Proofs.Kernel.Amounts
import MemoryArbiter.Proofs.Kernel.Averages
