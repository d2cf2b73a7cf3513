import SimCampaign.Main
import SimCampaign.Proofs.Grid.Axis
import SimCampaign.Proofs.Param.Enumeration
import SimCampaign.Proofs.Campaign.Values
import SimCampaign.Proofs.Campaign.Evaluation
import SimCampaign.Proofs.Campaign.Repetition
import SimCampaign.Proofs.Campaign.Restriction
import SimCampaign.Proofs.Storage.FileTree
import SimCampaign.Proofs.Storage.Path
import SimCampaign.Proofs.Archive.RunId
import SimCampaign.Proofs.Archive.Session
import SimCampaign.Proofs.Archive.Execution
import SimCampaign.Proofs.Archive.Progress
import SimCampaign.Proofs.Archive.History
import SimCampaign.Proofs.Archive.Loading
import SimCampaign.Proofs.Archive.Leftovers
import SimCampaign.Proofs.Json.Escape
import SimCampaign.Proofs.Json.Number
import SimCampaign.Proofs.Json.Layout
import SimCampaign.Proofs.Json.Rereading
import SimCampaign.Proofs.Json.Outline
import SimCampaign.Proofs.Param.Rereading
import SimCampaign.Proofs.Param.Reading
import SimCampaign.Proofs.Param.RoundTrip
import SimCampaign.Proofs.Param.Agreement
import SimCampaign.Proofs.Archive.Metadata
import SimCampaign.Proofs.Archive.Provenance
import SimCampaign.Proofs.Chart.Line
import SimCampaign.Proofs.Chart.Bar
import SimCampaign.Proofs.Study.Sweep
import SimCampaign.Proofs.Study.Plots
import SimCampaign.Proofs.Archive.Removal
import SimCampaign.Proofs.Archive.Invariant
import SimCampaign.Proofs.Study.Completion
import SimCampaign.Proofs.Table.Records
import SimCampaign.Proofs.Table.Lines
import SimCampaign.Proofs.Table.Rows
import SimCampaign.Proofs.Table.RoundTrip
import SimCampaign.Proofs.Grid.Coordinates
import SimCampaign.Proofs.Grid.Slicing
import SimCampaign.Proofs.Text.Blank
import SimCampaign.Proofs.Decimal.Layout
import SimCampaign.Proofs.Text.Csv
import SimCampaign.Proofs.Table.Csv
import SimCampaign.Proofs.Grid.Export
import SimCampaign.Proofs.Param.Changes
import SimCampaign.Proofs.Study.Completeness
import SimCampaign.Proofs.Grid.Bounds
import SimCampaign.Proofs.Table.Filtering
import SimCampaign.Proofs.First
import SimCampaign.Proofs.Text.ByteOrder
import SimCampaign.Proofs.Table.Outcome
import SimCampaign.Proofs.Campaign.Failure
import SimCampaign.Proofs.Binary64
import SimCampaign.Proofs.Trace.Schedule
import SimCampaign.Proofs.Metric.Fairness
import SimCampaign.Proofs.Binary64.Packing
import SimCampaign.Proofs.Binary64.Rounding
import SimCampaign.Proofs.Binary64.Arithmetic
import SimCampaign.Proofs.Statistics
import SimCampaign.Proofs.Grid.Undefined
import SimCampaign.Proofs.Metric.Window
import SimCampaign.Proofs.Trace.Entities
import SimCampaign.Proofs.Metric.Entities
import SimCampaign.Proofs.Param.Equality
import SimCampaign.Proofs.Trace.Scant
import SimCampaign.Proofs.Metric.Silence
import SimCampaign.Proofs.Grid.Commuting
import SimCampaign.Proofs.Archive.Ownership
import SimCampaign.Proofs.Archive.Visits
import SimCampaign.Proofs.Archive.RunHash
import SimCampaign.Proofs.Binary64.Nearest
import SimCampaign.Proofs.Decimal.Reading
import SimCampaign.Proofs.DataRate
import SimCampaign.Proofs.Lookup
import SimCampaign.Proofs.Binary64.Fraction
import SimCampaign.Proofs.Trace.Acceptance
import SimCampaign.Proofs.Statistics.Fairness
import SimCampaign.Proofs.Param.Collecting
