import StepSequencer.Clause
import StepSequencer.Clause.Meaning
import StepSequencer.Command.Arguments
import StepSequencer.Command.Files
import StepSequencer.Command.Run
import StepSequencer.Compilation
import StepSequencer.Diagnostic
import StepSequencer.Host
import StepSequencer.Host.Session
import StepSequencer.Index
import StepSequencer.Instruction
import StepSequencer.Instruction.Record
import StepSequencer.IntelHex
import StepSequencer.IntelHex.Reader
import StepSequencer.Json
import StepSequencer.Json.Encoding
import StepSequencer.Json.Loose
import StepSequencer.Json.Reader
import StepSequencer.Json.Writer
import StepSequencer.Main
import StepSequencer.Memory.Image
import StepSequencer.Memory.Map
import StepSequencer.Pack
import StepSequencer.Pack.Catalog
import StepSequencer.Pack.Source
import StepSequencer.Program
import StepSequencer.Program.Entry
import StepSequencer.Program.Lint
import StepSequencer.Program.Lower
import StepSequencer.Report
import StepSequencer.Report.Schema
import StepSequencer.Service
import StepSequencer.Service.Numeral
import StepSequencer.Service.Path
import StepSequencer.Service.Request
import StepSequencer.Settings
import StepSequencer.Steps
import StepSequencer.Target
import StepSequencer.Target.Assembly
import StepSequencer.Target.EmbeddedC
import StepSequencer.Target.EmbeddedRust
import StepSequencer.Target.Emit
import StepSequencer.Target.WebAssembly
import StepSequencer.Text.Blank
import StepSequencer.Text.Digits
import StepSequencer.Text.Numeral
import StepSequencer.Text.Position
import StepSequencer.Text.Printable
import StepSequencer.Text.Quoted
import StepSequencer.Text.Shortest
import StepSequencer.Text.Utf8
import StepSequencer.Text.Wide
import StepSequencer.Token
import StepSequencer.Token.Scan
import StepSequencer.Proofs.IntelHex.Record
import StepSequencer.Proofs.IntelHex.RoundTrip
import StepSequencer.Proofs.Host.Memory
import StepSequencer.Proofs.Compilation.Phases
import StepSequencer.Proofs.Host.Routes
import StepSequencer.Proofs.Target.Reader
import StepSequencer.Proofs.Target.Agreement
import StepSequencer.Proofs.Target.Comments
import StepSequencer.Proofs.Target.Title
import StepSequencer.Proofs.Clause.Relocation
import StepSequencer.Proofs.Index
import StepSequencer.Proofs.Pack.Source
import StepSequencer.Proofs.Pack.Image
import StepSequencer.Proofs.Clause.Grammar
import StepSequencer.Proofs.Steps
import StepSequencer.Proofs.Pack.Writes
import StepSequencer.Proofs.Compilation.Stores
import StepSequencer.Proofs.Host.Playback
import StepSequencer.Proofs.Host.Transport
import StepSequencer.Proofs.Clause.Names
import StepSequencer.Proofs.Host.Gates
import StepSequencer.Proofs.Compilation.Bar
import StepSequencer.Proofs.Token.Edge
import StepSequencer.Proofs.Token.Lines
import StepSequencer.Proofs.Clause.Boundary
import StepSequencer.Proofs.Clause.Recovery
import StepSequencer.Proofs.Token.Comments
import StepSequencer.Proofs.Clause.Comments
import StepSequencer.Proofs.Compilation.Comments
import StepSequencer.Proofs.Clause.Numbers
import StepSequencer.Proofs.Token.Reflow
import StepSequencer.Proofs.Compilation.Layout
import StepSequencer.Proofs.Compilation.Attempt
import StepSequencer.Proofs.Report.Valid
import StepSequencer.Proofs.Compilation.Outcome
import StepSequencer.Proofs.IntelHex.Damage
import StepSequencer.Proofs.Host.Refusal
import StepSequencer.Proofs.Steps.Cut
import StepSequencer.Proofs.Compilation.References
import StepSequencer.Proofs.Steps.Notes
import StepSequencer.Proofs.Pack.Marks
import StepSequencer.Proofs.IntelHex.Acceptance
import StepSequencer.Proofs.IntelHex.Length
import StepSequencer.Proofs.Token.Offsets
import StepSequencer.Proofs.Token.Order
import StepSequencer.Proofs.Program.Findings
import StepSequencer.Proofs.Clause.Order
import StepSequencer.Proofs.Compilation.Places
import StepSequencer.Proofs.Host.Session
import StepSequencer.Proofs.Program.Definitions
import StepSequencer.Proofs.Command.Storage
import StepSequencer.Proofs.Command.Endings
import StepSequencer.Proofs.Command.Steps
import StepSequencer.Proofs.Command.Promise
