/-!
What can be reached by following references between names. Only names of a given domain count, and
each of them is visited once, so as many rounds as the domain has names are enough.
-/

namespace RecordGraph

/-- Visits names from `pending` on, as long as rounds are left and a name of the domain that was not
visited yet is pending. -/
def visit (next : String → List String) : Nat → List String → List String → List String
  | 0, _, _ => []
  | rounds + 1, unseen, pending =>
    match pending.find? unseen.contains with
    | none => []
    | some name => name :: visit next rounds (unseen.erase name) (next name ++ pending)

/-- The names of a domain that can be reached from some seeds, the seeds themselves included. -/
def reachable (next : String → List String) (domain seeds : List String) : List String :=
  visit next domain.length domain seeds

end RecordGraph
