import ClassAtlas.Text.Blank
import ClassAtlas.Text.Ordinal
import ClassAtlas.Path
import ClassAtlas.Reference
import ClassAtlas.Relation
import ClassAtlas.Network
import ClassAtlas.Network.View
import ClassAtlas.Network.Resolve
import ClassAtlas.Network.Merge
import ClassAtlas.Event
import ClassAtlas.Text.WordChar
import ClassAtlas.Text.Digit
import ClassAtlas.Text.CaseFold
import ClassAtlas.Text.Quoted
import ClassAtlas.Pattern.Parser
import ClassAtlas.Graph.Finish
import ClassAtlas.Snapshot
import ClassAtlas.Drawing
import ClassAtlas.Item
import ClassAtlas.Toml.Document
import ClassAtlas.Settings
import ClassAtlas.SyntaxTree
import ClassAtlas.Glob.Parser
import ClassAtlas.Build
import ClassAtlas.SettingsFile
import ClassAtlas.Command
import ClassAtlas.Main
import ClassAtlas.Proofs.ArenaLaws
import ClassAtlas.Proofs.NetworkLaws
import ClassAtlas.Proofs.MergeLaws
import ClassAtlas.Proofs.Containment
import ClassAtlas.Proofs.Folding
import ClassAtlas.Proofs.Operations
import ClassAtlas.Proofs.Reachable
import ClassAtlas.Proofs.Registry
import ClassAtlas.Proofs.DeclaredPaths
import ClassAtlas.Proofs.Nesting
import ClassAtlas.Proofs.PlainNames
import ClassAtlas.Proofs.PlainBuild
import ClassAtlas.Proofs.Adoption
import ClassAtlas.Proofs.EdgeLaws
import ClassAtlas.Proofs.BuildStates
import ClassAtlas.Proofs.PathLaw
import ClassAtlas.Proofs.Quotient
import ClassAtlas.Proofs.KeptPaths
import ClassAtlas.Proofs.RelationKinds
import ClassAtlas.Proofs.Subnetworks
import ClassAtlas.Proofs.Pruning
import ClassAtlas.Proofs.PruningOrder
import ClassAtlas.Proofs.Listings
import ClassAtlas.Proofs.Growth
import ClassAtlas.Proofs.MixinTargets
import ClassAtlas.Proofs.PathText
import ClassAtlas.Proofs.ReferenceText
import ClassAtlas.Proofs.JsonText
import ClassAtlas.Proofs.SegmentNames
import ClassAtlas.Proofs.SnapshotText
import ClassAtlas.Proofs.DrawingText
import ClassAtlas.Proofs.Identifiers
import ClassAtlas.Proofs.BareNetworks
import ClassAtlas.Proofs.StyleRules
import ClassAtlas.Proofs.OutwardWalk
import ClassAtlas.Proofs.NearestScope
import ClassAtlas.Proofs.FoldingRuns
import ClassAtlas.Proofs.Lineage
import ClassAtlas.Proofs.Spelling
import ClassAtlas.Proofs.Outline
import ClassAtlas.Proofs.FaultSearch
import ClassAtlas.Proofs.Runs
import ClassAtlas.Proofs.Installation
import ClassAtlas.Proofs.Recording
import ClassAtlas.Proofs.RuleNumbers
