import InteropWitness.Analysis
import InteropWitness.Config.Basic
import InteropWitness.Config.Dump
import InteropWitness.Declaration
import InteropWitness.Json.Basic
import InteropWitness.Json.Decode
import InteropWitness.Json.Parser
import InteropWitness.Listing
import InteropWitness.OrderedMap
import InteropWitness.Override
import InteropWitness.Pass.Basic
import InteropWitness.Pass.Lifecycle
import InteropWitness.Proofs.Analysis.Dependency
import InteropWitness.Proofs.Analysis.Entities
import InteropWitness.Proofs.Analysis.Extension
import InteropWitness.Proofs.Analysis.Growth
import InteropWitness.Proofs.Analysis.OperandOrder
import InteropWitness.Proofs.Analysis.Operands
import InteropWitness.Proofs.Analysis.Order
import InteropWitness.Proofs.Analysis.Redeclaration
import InteropWitness.Proofs.Analysis.Relation
import InteropWitness.Proofs.Analysis.Run
import InteropWitness.Proofs.Analysis.Specialization
import InteropWitness.Proofs.Analysis.StringConversion
import InteropWitness.Proofs.Analysis.View
import InteropWitness.Proofs.Config.Overrides
import InteropWitness.Proofs.Json.Decode
import InteropWitness.Proofs.Json.Number
import InteropWitness.Proofs.Json.RoundTrip
import InteropWitness.Proofs.Json.String
import InteropWitness.Proofs.Listing.Agreement
import InteropWitness.Proofs.Listing.Concatenation
import InteropWitness.Proofs.Listing.Lines
import InteropWitness.Proofs.Listing.Names
import InteropWitness.Proofs.Listing.Respelling
import InteropWitness.Proofs.Listing.RoundTrip
import InteropWitness.Proofs.Namespace
import InteropWitness.Proofs.Namespace.Parts
import InteropWitness.Proofs.OrderedMap
import InteropWitness.Proofs.OrderedMap.Content
import InteropWitness.Proofs.Pass.Calls
import InteropWitness.Proofs.Pass.Journal
import InteropWitness.Proofs.Pass.Run
import InteropWitness.Proofs.Reachability
import InteropWitness.Proofs.Relation.Entries
import InteropWitness.Proofs.Relation.Evidence
import InteropWitness.Proofs.Relation.Found
import InteropWitness.Proofs.Relation.Proposals
import InteropWitness.Proofs.Relation.Run
import InteropWitness.Proofs.Relation.Search
import InteropWitness.Proofs.Relation.Specialization
import InteropWitness.Proofs.Relation.Upgrade
import InteropWitness.Proofs.Snapshot.Diff
import InteropWitness.Proofs.Snapshot.Tally
import InteropWitness.Proofs.Snapshot.Versions
import InteropWitness.Proofs.SourceUnit.Acceptance
import InteropWitness.Proofs.SourceUnit.Builder
import InteropWitness.Proofs.SourceUnit.Closure
import InteropWitness.Proofs.SourceUnit.Dump
import InteropWitness.Proofs.SourceUnit.Extension
import InteropWitness.Proofs.SourceUnit.Identity
import InteropWitness.Proofs.SourceUnit.Inheritance
import InteropWitness.Proofs.SourceUnit.Library
import InteropWitness.Proofs.SourceUnit.Rejection
import InteropWitness.Proofs.SourceUnit.Steps
import InteropWitness.Proofs.SourceUnit.View
import InteropWitness.Proofs.SourceUnit.Visibility
import InteropWitness.Proofs.StringConversion.Entries
import InteropWitness.Proofs.StringConversion.Redeclaration
import InteropWitness.Proofs.StringConversion.Run
import InteropWitness.Proofs.Text.Encodings
import InteropWitness.Proofs.Text.Respelling
import InteropWitness.Proofs.Text.Search
import InteropWitness.Proofs.Verdict.EnumCases
import InteropWitness.Proofs.Verdict.Token
import InteropWitness.Proofs.Witness
import InteropWitness.Relation.Pass
import InteropWitness.Relation.Search
import InteropWitness.Snapshot.Diff
import InteropWitness.Snapshot.Results
import InteropWitness.SourceUnit.Basic
import InteropWitness.SourceUnit.Builder
import InteropWitness.SourceUnit.Dump
import InteropWitness.SourceUnit.Inheritance
import InteropWitness.StringConversion.Pass
import InteropWitness.Text
import InteropWitness.Text.Quoted
import InteropWitness.Verdict
