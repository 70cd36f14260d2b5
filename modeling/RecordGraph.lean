import RecordGraph.Value.Same
import RecordGraph.Hub.Exchange
import RecordGraph.Client.Document
import RecordGraph.Client.Introspection
import RecordGraph.Service.Session
import RecordGraph.Library.Service
import RecordGraph.Proofs.Build.Run
import RecordGraph.Proofs.Build.Builders
import RecordGraph.Proofs.Build.Growth
import RecordGraph.Proofs.Build.Memo
import RecordGraph.Proofs.Build.Closure
import RecordGraph.Proofs.Build.Translation
import RecordGraph.Proofs.Build.MoreSteps
import RecordGraph.Proofs.Build.Ending
import RecordGraph.Proofs.Build.Origin
import RecordGraph.Proofs.Decode.Ending
import RecordGraph.Proofs.Build.Ambiguity
import RecordGraph.Proofs.Build.Pages
import RecordGraph.Proofs.Execute.Reference
import RecordGraph.Proofs.Hub.Delivery
import RecordGraph.Proofs.Hub.Census
import RecordGraph.Proofs.Hub.Stream
import RecordGraph.Proofs.Decode.Arguments
import RecordGraph.Proofs.Build.Roots
import RecordGraph.Proofs.Decode.Defaults
import RecordGraph.Proofs.Client.Agreement
import RecordGraph.Proofs.Build.Elements
import RecordGraph.Proofs.Build.Casing
import RecordGraph.Proofs.Build.Kinds
import RecordGraph.Proofs.Build.Order
import RecordGraph.Proofs.Resolve.Slices
import RecordGraph.Proofs.Resolve.Callables
import RecordGraph.Proofs.Execute.Queries
import RecordGraph.Proofs.Build.Filled
import RecordGraph.Proofs.Build.Failure
import RecordGraph.Proofs.Build.Codecs
import RecordGraph.Proofs.Hub.Separation
import RecordGraph.Proofs.Hub.Interleaving
import RecordGraph.Proofs.Library.Store
import RecordGraph.Proofs.Casing
import RecordGraph.Proofs.Scalar.Identifier
import RecordGraph.Proofs.Client.Printed
import RecordGraph.Proofs.Client.Kept
import RecordGraph.Proofs.Client.Typed
import RecordGraph.Proofs.Registry.Roll
import RecordGraph.Proofs.Scalar.Integer
import RecordGraph.Proofs.Value.Equality
import RecordGraph.Proofs.Value.RoundTrip
import RecordGraph.Proofs.Scalar.Nulls
import RecordGraph.Proofs.Time.RoundTrip
