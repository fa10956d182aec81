import Erabi.Queue.Reconciled
import Erabi.Queue.Fencing
import Erabi.Crawl.OrderRuns
import Erabi.Crawl.Budgets
import Erabi.Crawl.RoundTrip
import Erabi.Crawl.Termination
import Erabi.Production.Deadline
import Erabi.Production.Requeue
import Erabi.Progress.Rest
import Erabi.Queue.RetryBudget
import Erabi.Pacing.Safety
import Erabi.Snapshot.Loading
import Erabi.Configuration.SemanticHash
import Erabi.Cancellation.Requests
import Erabi.Queue.CancelledRuns
import Erabi.Queue.Lineage
import Erabi.Robots.SingleFlight
import Erabi.Finalization.Reconstruction
import Erabi.Traversal.Resolution
import Erabi.Traversal.Coherence
import Erabi.Traversal.Recovery
import Erabi.Authoring.Publishable
import Erabi.Authoring.Budget
import Erabi.Authoring.CanonicalUrl
import Erabi.Authoring.TieOrder
import Erabi.Authoring.Evidence
import Erabi.Authoring.Captures
import Erabi.Authoring.DomainScope
import Erabi.Progress.Paging
import Erabi.Queue.Acquisition
import Erabi.Cancellation.Wakeup
import Erabi.Traversal.Frontier
import Erabi.Relational.Session
import Erabi.Robots.Document
import Erabi.Robots.Evaluation
import Erabi.Robots.Rules
import Erabi.Robots.Comments
import Erabi.Snapshot.CanonicalHash
import Erabi.Recovery.RoundTrip
import Erabi.Pacing.Failures
import Erabi.Network.Resolution
import Erabi.Security.Mutations
import Erabi.Authoring.AmbiguityWitnesses
import Erabi.Crawl.LinkOrder
import Erabi.Progress.Pressure
import Erabi.Production.Seam
import Erabi.Worker.Progress
import Erabi.Pressure.Controller
import Erabi.Schema.Upgrades
import Erabi.Versions.Publication
