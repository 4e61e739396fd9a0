import Refit.Data.Json
import Refit.Data.Yaml
import Refit.Log.Session
import Refit.Objective.Session
import Refit.Parse
import Refit.Pipeline
import Refit.Quality.Report
import Refit.Settings
import Refit.Data.Yaml.Cursor
import Refit.Data.Yaml.Text
import Refit.Data.Yaml.Token
import Refit.Proofs.Plan.Conservation
import Refit.Proofs.Marker.Survival
import Refit.Proofs.Marker.RoundTrip
import Refit.Proofs.Request.Delivery
import Refit.Proofs.Replacement.Entries
import Refit.Proofs.Marker.Responses
import Refit.Proofs.Parse.Skeleton
import Refit.Proofs.Data.Least
import Refit.Proofs.Request.Ownership
import Refit.Proofs.Request.Summary
import Refit.Proofs.Marker.Cover
import Refit.Proofs.Plan.Progress
import Refit.Proofs.Plan.Segments
import Refit.Proofs.Quality.ReadBack
import Refit.Proofs.Marker.Sentinels
import Refit.Proofs.Marker.Gaps
import Refit.Proofs.Marker.Placement
import Refit.Proofs.Replacement.Signature
import Refit.Proofs.Replacement.Scan
import Refit.Proofs.Decl.Smallest
import Refit.Proofs.Decl.Merging
import Refit.Proofs.Request.Filing
import Refit.Proofs.Replacement.Extraction
import Refit.Proofs.Plan.Maximality
import Refit.Proofs.Report.Inversion
import Refit.Proofs.Request.Encoding
import Refit.Proofs.Objective.Combined
import Refit.Proofs.Objective.Snapshot
import Refit.Proofs.Parse.Shown
import Refit.Proofs.Parse.Verbatim
import Refit.Proofs.Replacement.Braces
import Refit.Proofs.Tree.Traversal
import Refit.Proofs.Log.Fields
