import DevicePlacement.Checked
import DevicePlacement.Cluster.Basic
import DevicePlacement.Cluster.Format
import DevicePlacement.Collapse
import DevicePlacement.Command.Arguments
import DevicePlacement.Command.Script
import DevicePlacement.Cost.Basic
import DevicePlacement.Cost.Estimator
import DevicePlacement.Cost.OpProfiles
import DevicePlacement.Cost.Table
import DevicePlacement.Decimal.Layout
import DevicePlacement.Decimal.Reading
import DevicePlacement.Decimal.Shortest
import DevicePlacement.Eligibility
import DevicePlacement.Graph.Basic
import DevicePlacement.Graph.Builder
import DevicePlacement.Graph.Format
import DevicePlacement.Graph.InputRef
import DevicePlacement.Json.Basic
import DevicePlacement.Json.Fields
import DevicePlacement.Json.Fragment
import DevicePlacement.Json.Numeral
import DevicePlacement.Json.Quoted
import DevicePlacement.Json.Token
import DevicePlacement.Knobs.Basic
import DevicePlacement.Knobs.Format
import DevicePlacement.Knobs.Overrides
import DevicePlacement.Main
import DevicePlacement.NameMap
import DevicePlacement.OpRegistry
import DevicePlacement.Placement.Balance
import DevicePlacement.Placement.Basic
import DevicePlacement.Placement.PricedGraph
import DevicePlacement.Placement.Roster
import DevicePlacement.Placement.Traffic
import DevicePlacement.Placer
import DevicePlacement.Proofs.Assignment
import DevicePlacement.Proofs.Collapse
import DevicePlacement.Proofs.Conservation
import DevicePlacement.Proofs.Containment
import DevicePlacement.Proofs.Cost.Estimate
import DevicePlacement.Proofs.Cost.Format
import DevicePlacement.Proofs.Cost.OpProfiles
import DevicePlacement.Proofs.Cost.Preparation
import DevicePlacement.Proofs.Cost.Restriction
import DevicePlacement.Proofs.Decimal.Reading
import DevicePlacement.Proofs.Eligibility
import DevicePlacement.Proofs.Graph.Builder
import DevicePlacement.Proofs.Graph.Format
import DevicePlacement.Proofs.Graph.InputRef
import DevicePlacement.Proofs.InStep
import DevicePlacement.Proofs.Json.Double
import DevicePlacement.Proofs.Json.Fields
import DevicePlacement.Proofs.Json.Fragment
import DevicePlacement.Proofs.Json.Numeral
import DevicePlacement.Proofs.Json.Token
import DevicePlacement.Proofs.Knobs.Layers
import DevicePlacement.Proofs.Placement.Alike
import DevicePlacement.Proofs.Placement.Balance
import DevicePlacement.Proofs.Placement.Enrolment
import DevicePlacement.Proofs.Placement.Extension
import DevicePlacement.Proofs.Placement.External
import DevicePlacement.Proofs.Placement.Intake
import DevicePlacement.Proofs.Placement.Loads
import DevicePlacement.Proofs.Placement.PricedGraph
import DevicePlacement.Proofs.Placement.Reassignment
import DevicePlacement.Proofs.Placement.References
import DevicePlacement.Proofs.Placement.Renaming
import DevicePlacement.Proofs.Placement.Roster
import DevicePlacement.Proofs.Placement.Safety
import DevicePlacement.Proofs.Placement.Sites
import DevicePlacement.Proofs.Placement.Traffic
import DevicePlacement.Proofs.Recount
import DevicePlacement.Proofs.Report
import DevicePlacement.Proofs.Report.Format
import DevicePlacement.Proofs.Returns
import DevicePlacement.Proofs.Safety
import DevicePlacement.Proofs.Skipping
import DevicePlacement.Proofs.Stats
import DevicePlacement.Proofs.Sweep.Alike
import DevicePlacement.Proofs.Sweep.Attraction
import DevicePlacement.Proofs.Sweep.Bounds
import DevicePlacement.Proofs.Sweep.Choice
import DevicePlacement.Proofs.Sweep.Commitment
import DevicePlacement.Proofs.Sweep.Extension
import DevicePlacement.Proofs.Sweep.Indistinct
import DevicePlacement.Proofs.Sweep.Journal
import DevicePlacement.Proofs.Sweep.Loads
import DevicePlacement.Proofs.Sweep.Plain
import DevicePlacement.Proofs.Sweep.Policies
import DevicePlacement.Proofs.Sweep.Refinement
import DevicePlacement.Proofs.Sweep.Renaming
import DevicePlacement.Proofs.Sweep.Repetition
import DevicePlacement.Proofs.Sweep.Replay
import DevicePlacement.Proofs.Sweep.Resumption
import DevicePlacement.Proofs.Sweep.Run
import DevicePlacement.Proofs.Sweep.Safety
import DevicePlacement.Proofs.Sweep.Savings
import DevicePlacement.Proofs.Sweep.Steps
import DevicePlacement.Proofs.Sweep.Tour
import DevicePlacement.Report.Basic
import DevicePlacement.Report.Format
import DevicePlacement.Session.Basic
import DevicePlacement.Session.Workspace
import DevicePlacement.Stats
import DevicePlacement.Sweep
