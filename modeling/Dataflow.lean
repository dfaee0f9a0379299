import Dataflow.Config.Format
import Dataflow.Graph.Format
import Dataflow.Main
import Dataflow.Plane.Format
import Dataflow.Workspace.Fusion
import Dataflow.Proofs.Acyclic
import Dataflow.Proofs.Description.Acceptance
import Dataflow.Proofs.Description.Build
import Dataflow.Proofs.Description.Format
import Dataflow.Proofs.Description.Stages
import Dataflow.Proofs.Description.WellFormed
import Dataflow.Proofs.Frontier.Offset
import Dataflow.Proofs.Frontier.Rank
import Dataflow.Proofs.Frontier.Release
import Dataflow.Proofs.Frontier.Writers
import Dataflow.Proofs.Gaudi.Contiguity
import Dataflow.Proofs.Gaudi.Counts
import Dataflow.Proofs.Gaudi.Priority
import Dataflow.Proofs.Gaudi.Probes
import Dataflow.Proofs.Gaudi.Run
import Dataflow.Proofs.Gaudi.Steps
import Dataflow.Proofs.Gaudi.Termination
import Dataflow.Proofs.Graph.Alias
import Dataflow.Proofs.Graph.Boundary
import Dataflow.Proofs.Graph.Consistent
import Dataflow.Proofs.Graph.Controls
import Dataflow.Proofs.Graph.Disconnect
import Dataflow.Proofs.Graph.Edit
import Dataflow.Proofs.Graph.History
import Dataflow.Proofs.Graph.Inverse
import Dataflow.Proofs.Graph.Relation
import Dataflow.Proofs.Graph.Replacement
import Dataflow.Proofs.Graph.Resolution
import Dataflow.Proofs.Json.Grammar
import Dataflow.Proofs.Json.Record
import Dataflow.Proofs.Json.Writer
import Dataflow.Proofs.Lists
import Dataflow.Proofs.MemoryOriented.Locality
import Dataflow.Proofs.MemoryOriented.Run
import Dataflow.Proofs.MemoryOriented.Walk
import Dataflow.Proofs.Network
import Dataflow.Proofs.Operations
import Dataflow.Proofs.PathMetrics
import Dataflow.Proofs.Plane.Annotations
import Dataflow.Proofs.Plane.Arrival
import Dataflow.Proofs.Plane.Build
import Dataflow.Proofs.Plane.Bundling
import Dataflow.Proofs.Plane.Candidate
import Dataflow.Proofs.Plane.Catalogue
import Dataflow.Proofs.Plane.Departure
import Dataflow.Proofs.Plane.Expansion
import Dataflow.Proofs.Plane.Exposure
import Dataflow.Proofs.Plane.Fuse
import Dataflow.Proofs.Plane.Gathering
import Dataflow.Proofs.Plane.Graph
import Dataflow.Proofs.Plane.Moves
import Dataflow.Proofs.Plane.Ordering
import Dataflow.Proofs.Plane.Quotient
import Dataflow.Proofs.Plane.Registry
import Dataflow.Proofs.Plane.Relationship
import Dataflow.Proofs.Plane.Restoring
import Dataflow.Proofs.Plane.Rewiring
import Dataflow.Proofs.Plane.Seating
import Dataflow.Proofs.Plane.Shown
import Dataflow.Proofs.Plane.Sound
import Dataflow.Proofs.Plane.Splitting
import Dataflow.Proofs.Plane.Tiling
import Dataflow.Proofs.Results
import Dataflow.Proofs.Schedule.Chains
import Dataflow.Proofs.Schedule.DepthFirst
import Dataflow.Proofs.Schedule.LeastOrder
import Dataflow.Proofs.Schedule.Locality
import Dataflow.Proofs.Schedule.Passes
import Dataflow.Proofs.Schedule.Placement
import Dataflow.Proofs.Schedule.Strategies
import Dataflow.Proofs.Schedule.Traversal
import Dataflow.Proofs.Schedule.Validity
import Dataflow.Proofs.Schedule.Verdict
import Dataflow.Proofs.Tables
import Dataflow.Proofs.Topology.Kahn
import Dataflow.Proofs.Topology.PathCount
import Dataflow.Proofs.Topology.Paths
import Dataflow.Proofs.Topology.Reach
import Dataflow.Proofs.Workspace.Acyclicity
import Dataflow.Proofs.Workspace.Atomicity
import Dataflow.Proofs.Workspace.Basic
import Dataflow.Proofs.Workspace.ChainOrder
import Dataflow.Proofs.Workspace.Coherence
import Dataflow.Proofs.Workspace.CycleCheck
import Dataflow.Proofs.Workspace.FlashAttention
import Dataflow.Proofs.Workspace.Fusion
import Dataflow.Proofs.Workspace.Quotient
import Dataflow.Proofs.Workspace.Rollback
import Dataflow.Proofs.Workspace.Serialization
import Dataflow.Proofs.Workspace.Stranding
