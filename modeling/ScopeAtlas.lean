import ScopeAtlas.Archive.Basic
import ScopeAtlas.Archive.Decode
import ScopeAtlas.Archive.Encode
import ScopeAtlas.Archive.Files
import ScopeAtlas.CommandLine.Invocation
import ScopeAtlas.CommandLine.Options
import ScopeAtlas.CommandLine.Run
import ScopeAtlas.CommandLine.Value
import ScopeAtlas.Expression.Basic
import ScopeAtlas.Expression.Display
import ScopeAtlas.Expression.Walk
import ScopeAtlas.Failure
import ScopeAtlas.Ignore.Glob
import ScopeAtlas.Ignore.Inputs
import ScopeAtlas.Ignore.Rules
import ScopeAtlas.Json.Basic
import ScopeAtlas.Json.Parse
import ScopeAtlas.Json.Print
import ScopeAtlas.Location
import ScopeAtlas.Main
import ScopeAtlas.Markup.Attribute
import ScopeAtlas.Markup.Document
import ScopeAtlas.Markup.Element
import ScopeAtlas.Markup.Event
import ScopeAtlas.Markup.Reference
import ScopeAtlas.Ordered
import ScopeAtlas.Program
import ScopeAtlas.Proofs.ArchiveUnits
import ScopeAtlas.Proofs.Assembly
import ScopeAtlas.Proofs.Chart
import ScopeAtlas.Proofs.Concatenation
import ScopeAtlas.Proofs.FileRemoval
import ScopeAtlas.Proofs.History
import ScopeAtlas.Proofs.Identity
import ScopeAtlas.Proofs.Links
import ScopeAtlas.Proofs.MergeSteps
import ScopeAtlas.Proofs.NestedReading
import ScopeAtlas.Proofs.Placement
import ScopeAtlas.Proofs.Plotting
import ScopeAtlas.Proofs.Provenance
import ScopeAtlas.Proofs.Reversal
import ScopeAtlas.Proofs.UnitChart
import ScopeAtlas.Proofs.UnitOrigin
import ScopeAtlas.Query.CallGraph
import ScopeAtlas.Query.Calls
import ScopeAtlas.Query.Statistics
import ScopeAtlas.Report.Duration
import ScopeAtlas.Report.Table
import ScopeAtlas.Report.Width
import ScopeAtlas.Report.WidthTable
import ScopeAtlas.Resolution.Hierarchy
import ScopeAtlas.Resolution.Inference
import ScopeAtlas.Resolution.Inventory
import ScopeAtlas.Resolution.Match
import ScopeAtlas.Resolution.Scopes
import ScopeAtlas.ScopeTree.Basic
import ScopeAtlas.ScopeTree.Equality
import ScopeAtlas.ScopeTree.Locate
import ScopeAtlas.ScopeTree.Merge
import ScopeAtlas.ScopeTree.Removal
import ScopeAtlas.ScopeTree.Visible
import ScopeAtlas.ScopeTree.Walk
import ScopeAtlas.Settings.Basic
import ScopeAtlas.Settings.Files
import ScopeAtlas.SourceUnit.Basic
import ScopeAtlas.SourceUnit.Construct
import ScopeAtlas.SourceUnit.Declaration
import ScopeAtlas.SourceUnit.Dialect
import ScopeAtlas.SourceUnit.Expression
import ScopeAtlas.SourceUnit.Linking
import ScopeAtlas.SourceUnit.Name
import ScopeAtlas.SourceUnit.Outline
import ScopeAtlas.SourceUnit.Statement
import ScopeAtlas.Statement.Basic
import ScopeAtlas.Statement.Definition
import ScopeAtlas.Statement.NamedScope
import ScopeAtlas.Storage.FileAccess
import ScopeAtlas.Storage.FileStore
import ScopeAtlas.Storage.Path
import ScopeAtlas.Text.Blank
import ScopeAtlas.Text.CaseTable
import ScopeAtlas.Text.Lowercase
import ScopeAtlas.Toml.Basic
import ScopeAtlas.Toml.Parse
import ScopeAtlas.Toml.Print
import ScopeAtlas.Toml.Scalar
import ScopeAtlas.Vocabulary
import ScopeAtlas.WorkingSet.Basic
import ScopeAtlas.WorkingSet.Event
import ScopeAtlas.Proofs.OneTree
import ScopeAtlas.Proofs.Conservation
import ScopeAtlas.Proofs.Representation
import ScopeAtlas.Proofs.Routing
import ScopeAtlas.Proofs.MergeOrder
import ScopeAtlas.Proofs.Renumbering
import ScopeAtlas.Proofs.Replacement
import ScopeAtlas.Proofs.Contributions
import ScopeAtlas.Proofs.WrittenPaths
import ScopeAtlas.Proofs.InventoryLookup
import ScopeAtlas.Proofs.InventoryAgreement
import ScopeAtlas.Proofs.CallQueries
import ScopeAtlas.Proofs.Orphans
import ScopeAtlas.Proofs.Locators
import ScopeAtlas.Proofs.JsonText
import ScopeAtlas.Proofs.ArchiveForm
import ScopeAtlas.Proofs.ArchiveRoundTrip
import ScopeAtlas.Proofs.LoadedTree
import ScopeAtlas.Proofs.LocationQueries
import ScopeAtlas.Proofs.Handles
import ScopeAtlas.Proofs.CurrentIndex
import ScopeAtlas.Proofs.LeafAdditions
import ScopeAtlas.Proofs.Shadowing
import ScopeAtlas.Proofs.HeaderVariables
import ScopeAtlas.Proofs.QualifiedMethods
import ScopeAtlas.Proofs.BatchUpdate
import ScopeAtlas.Proofs.CallTargets
import ScopeAtlas.Proofs.NestedSpans
import ScopeAtlas.Proofs.TagSpelling
import ScopeAtlas.Proofs.SpelledDocument
import ScopeAtlas.Proofs.CallPaths
import ScopeAtlas.Proofs.Receivers
import ScopeAtlas.Proofs.Conditionals
import ScopeAtlas.Proofs.Containment
