import InlineCheck.Machine
import InlineCheck.Main
import InlineCheck.Watch
import InlineCheck.Proofs.Scheduler.SingleFlight
import InlineCheck.Proofs.Scheduler.Freshness
import InlineCheck.Proofs.Scheduler.Staleness
import InlineCheck.Proofs.Run.CheckAll
import InlineCheck.Proofs.Watch.Seat
import InlineCheck.Proofs.Watch.History
import InlineCheck.Proofs.Watch.Due
import InlineCheck.Proofs.Watch.Convergence
import InlineCheck.Proofs.Watch.Window
import InlineCheck.Proofs.Watch.Forgotten
import InlineCheck.Proofs.Watch.Charge
import InlineCheck.Proofs.Watch.Ledger
import InlineCheck.Proofs.Watch.Delivery
import InlineCheck.Proofs.Json.Reading
import InlineCheck.Proofs.Report.Parse
import InlineCheck.Proofs.Report.Truncation
import InlineCheck.Proofs.Since
import InlineCheck.Proofs.Index.Answers
import InlineCheck.Proofs.Index.Insertion
import InlineCheck.Proofs.Index.Equality
import InlineCheck.Proofs.Store.History
import InlineCheck.Proofs.Json.Document
import InlineCheck.Proofs.Json.Fields
import InlineCheck.Proofs.Json.Record
import InlineCheck.Proofs.Json.Writing
import InlineCheck.Proofs.Json.Roundtrip
import InlineCheck.Proofs.Json.Readable
import InlineCheck.Proofs.Report.Agreement
import InlineCheck.Proofs.Report.Written
import InlineCheck.Proofs.Report.FirstMessage
import InlineCheck.Proofs.Report.Payload
import InlineCheck.Proofs.Report.OtherFiles
import InlineCheck.Proofs.Run.Failure
import InlineCheck.Proofs.Run.Printout
import InlineCheck.Proofs.Run.JsonReport
import InlineCheck.Proofs.Path.Components
import InlineCheck.Proofs.ProjectRoot.Governing
import InlineCheck.Proofs.ProjectRoot.Ascent
import InlineCheck.Proofs.Text.Lines
import InlineCheck.Proofs.Format.Verbose
import InlineCheck.Proofs.Format.Remarks
import InlineCheck.Proofs.Json.Integer
import InlineCheck.Proofs.Report.LineNumbers
import InlineCheck.Proofs.Path.Respelling
import InlineCheck.Proofs.Index.Spelling
