import SourceGauge.Main
import SourceGauge.Run.Outcome
import SourceGauge.Proofs.LineKinds
import SourceGauge.Proofs.LeftmostSpans
import SourceGauge.Proofs.LogicalSpans
import SourceGauge.Proofs.DecisionSeams
import SourceGauge.Proofs.Concatenation
import SourceGauge.Proofs.Stripping
import SourceGauge.Proofs.CounterBounds
import SourceGauge.Proofs.Padding
import SourceGauge.Proofs.CommentEdits
import SourceGauge.Proofs.RunOutput
import SourceGauge.Proofs.PathParts
import SourceGauge.Proofs.SettingsSearch
import SourceGauge.Proofs.DirectoryVisits
import SourceGauge.Proofs.PathOrder
import SourceGauge.Proofs.FileDiscovery
import SourceGauge.Proofs.ReadPolicies
import SourceGauge.Proofs.JsonRoundTrip
import SourceGauge.Proofs.CountRatios
import SourceGauge.Proofs.DocumentData
import SourceGauge.Proofs.DecisionRuns
import SourceGauge.Proofs.Aggregation
import SourceGauge.Proofs.OptionSets
import SourceGauge.Proofs.LogicalSeams
import SourceGauge.Proofs.CallMasks
import SourceGauge.Proofs.LineTotals
import SourceGauge.Proofs.NearestDatum
import SourceGauge.Proofs.RatioText
import SourceGauge.Proofs.VisitTermination
import SourceGauge.Proofs.DiscoveryFilters
import SourceGauge.Proofs.UsableSettings
import SourceGauge.Proofs.DisplayWidth
import SourceGauge.Proofs.FileTable
