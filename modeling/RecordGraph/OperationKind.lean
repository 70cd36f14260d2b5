/-!
The kinds of operations that a client may send.
-/

namespace RecordGraph

/-- The kinds of operations. -/
inductive OperationKind where
  | query
  | mutation
  | subscription
  deriving DecidableEq, Repr, Inhabited

/-- The name of a kind of operation. -/
def OperationKind.text : OperationKind → String
  | .query => "query"
  | .mutation => "mutation"
  | .subscription => "subscription"

end RecordGraph
