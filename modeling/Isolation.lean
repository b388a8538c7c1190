import Isolation.CommandLine.Run
import Isolation.Main
import Isolation.Proofs.Schedule
import Isolation.Proofs.Success
import Isolation.Shell.Launch
import Isolation.Proofs.Growth
import Isolation.Closure.Sharing
import Isolation.Proofs.Arrangement
import Isolation.Proofs.Sharing
import Isolation.Proofs.Outlines
import Isolation.Proofs.Reversal
import Isolation.Proofs.Paths
import Isolation.Proofs.Locality
import Isolation.Proofs.DerivedTiers
import Isolation.Proofs.Manifests
import Isolation.Proofs.Texts
import Isolation.Proofs.GoModLayout
import Isolation.Proofs.Consumers
import Isolation.Proofs.Listings
import Isolation.Proofs.ScannedEdges
import Isolation.Proofs.Closures
import Isolation.Proofs.ReportedCycles
import Isolation.Proofs.VersionOrder
import Isolation.Proofs.Conflicts
import Isolation.Proofs.CrossChecks
import Isolation.Proofs.FirstPaths
import Isolation.Proofs.OutlineLines
import Isolation.Proofs.WholeTrees
import Isolation.Proofs.LimitedTrees
import Isolation.Proofs.VersionPrecedence
import Isolation.Proofs.GroundedTiers
import Isolation.Proofs.TierSolutions
import Isolation.Proofs.SelectedVersions
import Isolation.Proofs.MergedModules
import Isolation.Proofs.InheritedTiers
import Isolation.Proofs.GoModLines
import Isolation.Proofs.GoModOpeners
import Isolation.Proofs.FoundFiles
import Isolation.Proofs.TierFindings
import Isolation.Proofs.DepthLimits
import Isolation.Proofs.ListingLines
import Isolation.Proofs.MalformedScans
import Isolation.Proofs.StoredArrangement
import Isolation.Proofs.StoredForms
import Isolation.Proofs.FirstOccurrences
import Isolation.Proofs.StoredIterations
