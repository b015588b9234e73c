import PropertyGraph.Main
import PropertyGraph.Proofs.Graph.Rerun
import PropertyGraph.Result.Row
import PropertyGraph.Storage.Disk
import PropertyGraph.Proofs.Graph.Ranking
import PropertyGraph.Proofs.Graph.Walks
import PropertyGraph.Proofs.Guard.Ceiling
import PropertyGraph.Proofs.Guard.Execution
import PropertyGraph.Proofs.Json.Scanning
import PropertyGraph.Proofs.Json.Words
import PropertyGraph.Proofs.Json.RoundTrip
import PropertyGraph.Proofs.Double.Finite
import PropertyGraph.Proofs.Json.Legal
import PropertyGraph.Proofs.Property.Encoding
import PropertyGraph.Proofs.Property.MergeAlgebra
import PropertyGraph.Proofs.Property.Decoding
import PropertyGraph.Proofs.Graph.Stored
import PropertyGraph.Proofs.Record.Rereading
import PropertyGraph.Proofs.Record.Reordering
import PropertyGraph.Proofs.Record.Splitting
import PropertyGraph.Proofs.Record.Growth
import PropertyGraph.Proofs.Record.Outline
import PropertyGraph.Proofs.Cypher.Compiling
import PropertyGraph.Proofs.Cypher.Variables
import PropertyGraph.Proofs.Cypher.Lexing
import PropertyGraph.Proofs.Cypher.Unambiguous
import PropertyGraph.Proofs.Cypher.Faithful
import PropertyGraph.Proofs.Guard.Replacement
import PropertyGraph.Proofs.Guard.Requests
import PropertyGraph.Proofs.Guard.Resetting
import PropertyGraph.Proofs.Guard.Appending
import PropertyGraph.Proofs.Graph.Accounting
import PropertyGraph.Proofs.Cypher.Coverage
import PropertyGraph.Proofs.Cypher.NameSearch
import PropertyGraph.Proofs.Cypher.Naming
import PropertyGraph.Proofs.Cypher.Listings
import PropertyGraph.Proofs.Cypher.Fragments
import PropertyGraph.Proofs.Cypher.Conditions
import PropertyGraph.Proofs.Cypher.Stripping
import PropertyGraph.Proofs.Graph.Submissions
import PropertyGraph.Proofs.Result.Indices
import PropertyGraph.Proofs.Result.Paths
import PropertyGraph.Proofs.Graph.MovedEdge
import PropertyGraph.Proofs.Graph.Withdrawal
import PropertyGraph.Proofs.Graph.MadeUpEnds
import PropertyGraph.Proofs.Table.References
import PropertyGraph.Proofs.Table.Agreement
import PropertyGraph.Proofs.Build
import PropertyGraph.Proofs.Template.Substitution
