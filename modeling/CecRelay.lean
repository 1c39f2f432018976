import CecRelay.Adapter.Client
import CecRelay.Adapter.Identity
import CecRelay.Adapter.KeyLine
import CecRelay.Adapter.Link
import CecRelay.Adapter.Port
import CecRelay.Adapter.Scripted
import CecRelay.Adapter.Wire
import CecRelay.Bench.DiskView
import CecRelay.Bench.Folder
import CecRelay.Bench.Listening
import CecRelay.Bench.Machine
import CecRelay.Bench.Play
import CecRelay.Bench.Rig
import CecRelay.Bench.Session
import CecRelay.Bench.StandIn
import CecRelay.Bench.Tree
import CecRelay.CommandLine.Console
import CecRelay.CommandLine.Help
import CecRelay.CommandLine.Misuse
import CecRelay.CommandLine.Options
import CecRelay.Config.Basic
import CecRelay.Config.Environment
import CecRelay.Config.File
import CecRelay.Config.Lists
import CecRelay.Decimal.Shortest
import CecRelay.Dispatch.Launch
import CecRelay.Dispatch.Run
import CecRelay.Dispatch.Stage
import CecRelay.Error
import CecRelay.Event
import CecRelay.Json.Doc
import CecRelay.Json.Token
import CecRelay.Json.Value
import CecRelay.Keymap.Injector
import CecRelay.Keymap.KeyName
import CecRelay.Keymap.Table
import CecRelay.Log.Filter
import CecRelay.Log.Level
import CecRelay.Log.Pattern
import CecRelay.Log.Record
import CecRelay.Log.Rule
import CecRelay.Log.Text
import CecRelay.Main
import CecRelay.Power.Monitor
import CecRelay.Power.Signal
import CecRelay.Proofs.Json.Spelling
import CecRelay.Proofs.Json.Writing
import CecRelay.Proofs.Queue.Closing
import CecRelay.Proofs.Queue.Cursor
import CecRelay.Proofs.Queue.Disk
import CecRelay.Proofs.Queue.Envelope
import CecRelay.Proofs.Queue.Journal
import CecRelay.Proofs.Queue.Ledger
import CecRelay.Proofs.Queue.Lines
import CecRelay.Proofs.Queue.Lives
import CecRelay.Proofs.Queue.Order
import CecRelay.Proofs.Queue.Recovery
import CecRelay.Proofs.Queue.Running
import CecRelay.Proofs.Queue.Service
import CecRelay.Proofs.Queue.StaleCursor
import CecRelay.Proofs.Queue.Standing
import CecRelay.Proofs.Text.Ascii
import CecRelay.Proofs.Text.Decimal
import CecRelay.Proofs.Text.Names
import CecRelay.Proofs.Time.Stamp
import CecRelay.Queue.Cursor
import CecRelay.Queue.Disk
import CecRelay.Queue.Envelope
import CecRelay.Queue.Journal
import CecRelay.Queue.Ledger
import CecRelay.Queue.Lines
import CecRelay.Queue.Pump
import CecRelay.Restart
import CecRelay.Shape
import CecRelay.Text.Blank
import CecRelay.Text.Faint
import CecRelay.Text.LineStream
import CecRelay.Text.NameTable
import CecRelay.Text.Numeral
import CecRelay.Text.Quoted
import CecRelay.Text.Search
import CecRelay.Text.Terminal
import CecRelay.Text.Utf8
import CecRelay.Text.Word
import CecRelay.Time.Calendar
import CecRelay.Time.Span
import CecRelay.Time.Stamp
import CecRelay.Toml.Document
import CecRelay.Toml.Item
import CecRelay.Toml.Lexeme
import CecRelay.Warning
import CecRelay.Proofs.Adapter.Budget
import CecRelay.Proofs.Adapter.Calls
import CecRelay.Proofs.Adapter.Errands
import CecRelay.Proofs.Adapter.Failed
import CecRelay.Proofs.Adapter.Generations
import CecRelay.Proofs.Queue.Settled
import CecRelay.Proofs.Queue.Exact
import CecRelay.Proofs.Queue.Kept
import CecRelay.Proofs.Queue.NextQueue
import CecRelay.Proofs.Dispatch.Course
import CecRelay.Proofs.Dispatch.Replacing
import CecRelay.Proofs.Dispatch.Ends
import CecRelay.Proofs.Dispatch.Request
import CecRelay.Proofs.Dispatch.Lineage
import CecRelay.Proofs.Queue.Agreement
import CecRelay.Proofs.Queue.Wakeups
import CecRelay.Proofs.Config.KeyOverrides
import CecRelay.Proofs.Config.PowerEvents
import CecRelay.Proofs.Dispatch.Commands
import CecRelay.Proofs.Queue.Numbering
import CecRelay.Proofs.Dispatch.KeyRelay
import CecRelay.Proofs.Text.Utf8
import CecRelay.Proofs.Adapter.Broadcast
import CecRelay.Proofs.Queue.Opening
import CecRelay.Proofs.Queue.Leftover
import CecRelay.Proofs.Queue.Framing
import CecRelay.Proofs.Text.Search
import CecRelay.Proofs.Text.Numeral
import CecRelay.Proofs.Power.LookBack
import CecRelay.Proofs.Power.Members
import CecRelay.Proofs.Adapter.KeyLine
import CecRelay.Proofs.Adapter.KeyReport
import CecRelay.Proofs.Queue.NotText
import CecRelay.Proofs.Queue.FreshNumber
import CecRelay.Proofs.Queue.FailedWrites
import CecRelay.Proofs.Dispatch.LettingGo
import CecRelay.Proofs.Text.LineStream
import CecRelay.Proofs.Adapter.KeyStream
import CecRelay.Proofs.Text.ByteOrder
import CecRelay.Proofs.Keymap.Presses
import CecRelay.Proofs.Queue.Marks
import CecRelay.Proofs.Queue.Receipts
import CecRelay.Proofs.Keymap.Spelling
import CecRelay.Proofs.Config.Lists
