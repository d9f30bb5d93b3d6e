import ScriptBundle.Main
import ScriptBundle.CommandLine.Run
import ScriptBundle.Proofs.Path.Folders
import ScriptBundle.Proofs.Path.Idle
import ScriptBundle.Proofs.Resolution.Found
import ScriptBundle.Proofs.Walk.Queue
import ScriptBundle.Proofs.Walk.Linking
import ScriptBundle.Proofs.Walk.Drain
import ScriptBundle.Proofs.Graph.References
import ScriptBundle.Proofs.Walk.Entries
import ScriptBundle.Proofs.Bundle.Setup
import ScriptBundle.Proofs.Bundle.Integrity
import ScriptBundle.Proofs.Walk.Exploration
import ScriptBundle.Proofs.Bundle.Order
import ScriptBundle.Proofs.Stream.Pulls
import ScriptBundle.Proofs.Stream.Reading
import ScriptBundle.Proofs.Stream.Drained
import ScriptBundle.Proofs.Walk.Policies
import ScriptBundle.Proofs.Bundle.Policies
import ScriptBundle.Proofs.Graph.Groups
import ScriptBundle.Proofs.Graph.Circles
import ScriptBundle.Proofs.Path.Joining
import ScriptBundle.Proofs.Resolution.Candidates
import ScriptBundle.Proofs.Resolution.Places
import ScriptBundle.Proofs.Walk.Termination
import ScriptBundle.Proofs.Walk.Closure
import ScriptBundle.Proofs.Bundle.Closure
import ScriptBundle.Proofs.Bundle.IncludeOrder
import ScriptBundle.Proofs.Bundle.Manifests
import ScriptBundle.Proofs.Path.Relative
import ScriptBundle.Proofs.Walk.Exclusion
import ScriptBundle.Proofs.Artifact.Header
import ScriptBundle.Proofs.Bundle.EntryModule
import ScriptBundle.Proofs.Bundle.Modules
import ScriptBundle.Proofs.Bundle.Literals
import ScriptBundle.Proofs.Bundle.DependencyManifests
import ScriptBundle.Proofs.Package.ExportedMain
import ScriptBundle.Proofs.Path.Located
import ScriptBundle.Proofs.Path.NormalForm
import ScriptBundle.Proofs.Compiler.Dispatch
import ScriptBundle.Proofs.Resolution.Canonical
import ScriptBundle.Proofs.Files.Holding
import ScriptBundle.Proofs.Walk.Views
import ScriptBundle.Proofs.CommandLine.Writing
import ScriptBundle.Proofs.CommandLine.Artifact
import ScriptBundle.Proofs.Walk.Names
import ScriptBundle.Proofs.Artifact.Keys
import ScriptBundle.Proofs.Artifact.Filled
import ScriptBundle.Proofs.Walk.Failures
import ScriptBundle.Proofs.Compiler.Calls
import ScriptBundle.Proofs.Walk.Alike
import ScriptBundle.Proofs.Bundle.Repetition
import ScriptBundle.Proofs.Resolution.Respelled
import ScriptBundle.Proofs.Walk.Outside
import ScriptBundle.Proofs.Compiler.Lines
import ScriptBundle.Proofs.Graph.OrderedSets
import ScriptBundle.Proofs.Settings.Layers
import ScriptBundle.Proofs.Walk.Spellings
