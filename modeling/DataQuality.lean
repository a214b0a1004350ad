import DataQuality.Main
import DataQuality.Measure.Stored
import DataQuality.Proofs.Batches
import DataQuality.Proofs.BoundTests
import DataQuality.Proofs.Buckets
import DataQuality.Proofs.Cancellation
import DataQuality.Proofs.Capabilities
import DataQuality.Proofs.CaseFolding
import DataQuality.Proofs.Clashes
import DataQuality.Proofs.Closures
import DataQuality.Proofs.ColumnMetrics
import DataQuality.Proofs.ComparisonChains
import DataQuality.Proofs.CompiledTests
import DataQuality.Proofs.Computations
import DataQuality.Proofs.CustomQueries
import DataQuality.Proofs.CustomReports
import DataQuality.Proofs.DeclaredColumns
import DataQuality.Proofs.Decoding
import DataQuality.Proofs.DependencyOrders
import DataQuality.Proofs.DerivedMetrics
import DataQuality.Proofs.Drafts
import DataQuality.Proofs.FailedRows
import DataQuality.Proofs.FatalConditions
import DataQuality.Proofs.FirstWrites
import DataQuality.Proofs.FloatLiterals
import DataQuality.Proofs.Gate
import DataQuality.Proofs.GroupEntries
import DataQuality.Proofs.GroupRows
import DataQuality.Proofs.GroupedNames
import DataQuality.Proofs.GroupedTests
import DataQuality.Proofs.HiddenPasswords
import DataQuality.Proofs.Histograms
import DataQuality.Proofs.ImpliedTests
import DataQuality.Proofs.Isolation
import DataQuality.Proofs.JsonLeaves
import DataQuality.Proofs.KeyedLists
import DataQuality.Proofs.LargerRequests
import DataQuality.Proofs.Leaves
import DataQuality.Proofs.Ledgers
import DataQuality.Proofs.LexemeForms
import DataQuality.Proofs.Lexemes
import DataQuality.Proofs.Lifecycle
import DataQuality.Proofs.Matching
import DataQuality.Proofs.MeasuredFirst
import DataQuality.Proofs.Merging
import DataQuality.Proofs.MissingAndValid
import DataQuality.Proofs.NameLists
import DataQuality.Proofs.NearestFloats
import DataQuality.Proofs.NumberFormats
import DataQuality.Proofs.NumberStyles
import DataQuality.Proofs.ParseTrees
import DataQuality.Proofs.PhaseOrder
import DataQuality.Proofs.PlainNumbers
import DataQuality.Proofs.PlannedColumns
import DataQuality.Proofs.PositionalOutputs
import DataQuality.Proofs.Producers
import DataQuality.Proofs.Quotations
import DataQuality.Proofs.ReachedColumns
import DataQuality.Proofs.ReadingExpressions
import DataQuality.Proofs.ReadingJson
import DataQuality.Proofs.ReadingTexts
import DataQuality.Proofs.Reasons
import DataQuality.Proofs.Reloading
import DataQuality.Proofs.RepeatedColumns
import DataQuality.Proofs.ReportedKeys
import DataQuality.Proofs.RequestedMetrics
import DataQuality.Proofs.Rereading
import DataQuality.Proofs.Respellings
import DataQuality.Proofs.Runs
import DataQuality.Proofs.SameRows
import DataQuality.Proofs.ScientificNumbers
import DataQuality.Proofs.ScopeOrder
import DataQuality.Proofs.ShownExpressions
import DataQuality.Proofs.SqlConditions
import DataQuality.Proofs.SqlNumbers
import DataQuality.Proofs.TestDeclarations
import DataQuality.Proofs.TestErrors
import DataQuality.Proofs.TestIds
import DataQuality.Proofs.TestedQueries
import DataQuality.Proofs.TextLiterals
import DataQuality.Proofs.Tokenization
import DataQuality.Proofs.TreeHeights
import DataQuality.Proofs.TreeSizes
import DataQuality.Proofs.TrimmedSources
import DataQuality.Proofs.Verdicts
