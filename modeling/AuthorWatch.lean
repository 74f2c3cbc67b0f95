import AuthorWatch.Main
import AuthorWatch.Proofs.Ledger.History
import AuthorWatch.Proofs.Recorder.Log
import AuthorWatch.Proofs.Recorder.Restart
import AuthorWatch.Proofs.Ledger.Ranking
import AuthorWatch.Proofs.Recorder.Visit
import AuthorWatch.Proofs.Ledger.Eviction
import AuthorWatch.Proofs.Ledger.Sighting
import AuthorWatch.Proofs.Ledger.Highest
import AuthorWatch.Proofs.Json.Integers
import AuthorWatch.Proofs.Ledger.Savable
import AuthorWatch.Proofs.Feed.Frame
import AuthorWatch.Proofs.Snapshot.Survival
import AuthorWatch.Proofs.Csv.Encoding
import AuthorWatch.Proofs.Recorder.Failure
import AuthorWatch.Proofs.Observer.Sequence
import AuthorWatch.Proofs.Observer.Tasks
import AuthorWatch.Proofs.Observer.Watch
import AuthorWatch.Proofs.Ledger.View
import AuthorWatch.Proofs.Recorder.Policies
import AuthorWatch.Proofs.Recorder.Identities
import AuthorWatch.Proofs.Feed.Client
import AuthorWatch.Proofs.Feed.Framing
import AuthorWatch.Proofs.Feed.Format
import AuthorWatch.Proofs.Snapshot.Atomic
import AuthorWatch.Proofs.Recorder.Once
import AuthorWatch.Proofs.Ledger.Tallest
import AuthorWatch.Proofs.Recorder.Tip
import AuthorWatch.Proofs.Ledger.Sweep
import AuthorWatch.Proofs.Ledger.Import
import AuthorWatch.Proofs.Ledger.Authors
import AuthorWatch.Proofs.Json.Accepted
import AuthorWatch.Proofs.Json.Texts
import AuthorWatch.Proofs.Snapshot.Loading
import AuthorWatch.Proofs.Output.Batch
import AuthorWatch.Proofs.Recorder.Inert
import AuthorWatch.Proofs.Settings.Environment
import AuthorWatch.Proofs.Settings.Merge
import AuthorWatch.Proofs.Settings.Graph
import AuthorWatch.Proofs.Settings.Fields
import AuthorWatch.Proofs.Yaml.Value
import AuthorWatch.Proofs.Settings.Sources
import AuthorWatch.Proofs.Settings.Failure
import AuthorWatch.Proofs.Feed.Stop
import AuthorWatch.Proofs.Settings.JsonLike
import AuthorWatch.Proofs.Settings.Members
import AuthorWatch.Proofs.Settings.Complaints
import AuthorWatch.Proofs.Settings.Options
