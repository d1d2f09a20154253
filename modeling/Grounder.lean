import Grounder.CommandLine.Run
import Grounder.Compile
import Grounder.Config
import Grounder.Main
import Grounder.Output.Write
import Grounder.Proofs.Code.Effects
import Grounder.Proofs.Code.Precondition
import Grounder.Proofs.Compile.Linking
import Grounder.Proofs.Compile.SharedCache
import Grounder.Proofs.Compile.SymbolOrder
import Grounder.Proofs.InitialState.Elements
import Grounder.Proofs.Task.RoundTrip
import Grounder.Proofs.StateVariable
import Grounder.Proofs.VariableListing
import Grounder.Proofs.Code.StaticListing
import Grounder.Proofs.Files.FileTree
import Grounder.Proofs.Files.Path
import Grounder.Proofs.Files.FileStore
import Grounder.Proofs.Output.Manifest
import Grounder.Proofs.Output.Write
import Grounder.Proofs.Output.Failure
import Grounder.Proofs.Output.Reruns
import Grounder.Proofs.InitialState.Spelling
import Grounder.Proofs.Compile.References
import Grounder.Proofs.Compile.StaticExternals
import Grounder.Proofs.Compile.InitialFacts
import Grounder.Proofs.ActionOrder
import Grounder.Proofs.Compile.ArtifactNames
import Grounder.Proofs.Compile.Errors
import Grounder.Proofs.Relisting
import Grounder.Proofs.Template.DiskReads
import Grounder.Proofs.Code.ClassName
import Grounder.Proofs.Compile.ClassNames
import Grounder.Proofs.RepeatedObjects
import Grounder.Proofs.Template.Sessions
import Grounder.Proofs.Compile.PlannedConstraints
import Grounder.Proofs.Compile.WellFormed
import Grounder.Proofs.Compile.ConstraintListing
import Grounder.Proofs.Template.Concatenation
import Grounder.Proofs.Template.Slots
import Grounder.Proofs.NumberingErrors
import Grounder.Proofs.NumberingSessions
import Grounder.Proofs.ListingLines
import Grounder.Proofs.SymbolCatalog
import Grounder.Proofs.Task.Conjuncts
import Grounder.Proofs.Compile.Nesting
import Grounder.Proofs.StrideRange
import Grounder.Proofs.Compile.ConstraintParameters
import Grounder.Proofs.Config
import Grounder.Proofs.InitialState.Compiler
import Grounder.Proofs.OdometerCalls
import Grounder.Proofs.ObjectTables
import Grounder.Proofs.Text.ByteOrder
import Grounder.Proofs.Output.Search
