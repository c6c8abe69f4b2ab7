import LintPool.Command.Execute
import LintPool.Dashboard.Api
import LintPool.History.Queue
import LintPool.Main
import LintPool.Pool.Rehearsal
import LintPool.Proofs.Pool.Transition
import LintPool.Report.Text
import LintPool.Worker
import LintPool.Proofs.Pool.Settled
import LintPool.Proofs.Pool.Conservation
import LintPool.Proofs.Pool.Account
import LintPool.Proofs.Pool.Retries
import LintPool.Proofs.Pool.Reception
import LintPool.Proofs.Pool.Exchange
import LintPool.Proofs.Pool.Chronicle
import LintPool.Proofs.Stream.RoundTrip
import LintPool.Proofs.Worker.Trace
import LintPool.Proofs.Run.Inference
import LintPool.Proofs.Worker.Report
import LintPool.Proofs.Report.Arrival
import LintPool.Proofs.Stream.Truncation
import LintPool.Proofs.Stream.Reader
import LintPool.Proofs.Message.Accepted
import LintPool.Proofs.Run.Relay
import LintPool.Proofs.Cache.History
import LintPool.Proofs.Pool.Tally
import LintPool.Proofs.Dashboard.Hub
import LintPool.Proofs.Dashboard.Completion
import LintPool.Proofs.Run.Failures
import LintPool.Proofs.Schedule.Loop
import LintPool.Proofs.Analysis.Isolation
import LintPool.Proofs.Discovery.Exact
import LintPool.Proofs.Dashboard.Interleaving
import LintPool.Proofs.Discovery.Link
import LintPool.Proofs.Source.InPlace
import LintPool.Proofs.Source.Comment
import LintPool.Proofs.Rule.Agreement
import LintPool.Proofs.Rule.Location
import LintPool.Proofs.MemoryLimit
import LintPool.Proofs.Report.Layout
import LintPool.Proofs.Report.Verdict
import LintPool.Proofs.Cache.Key
import LintPool.Proofs.Dashboard.Delivery
