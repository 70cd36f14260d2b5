import RecordGraph.Value.Host
/-!
The decoded arguments of a field, by host name. An argument that is null counts as absent for every
reader but `contains`.
-/

namespace RecordGraph

/-- Arguments by host name, in the order given. -/
abbrev Arguments := Entries Value

namespace Arguments

/-- The value of an argument that is there and not null. -/
def get? (a : Arguments) (name : String) : Option Value :=
  (Entries.get? a name).filter fun value => !value.isNull

/-- The text of an argument. -/
def text? (a : Arguments) (name : String) : Option String := (get? a name).bind Value.asText?

/-- The integer of an argument. -/
def int? (a : Arguments) (name : String) : Option Int64 := (get? a name).bind Value.asInt64?

/-- The items of an argument. -/
def list? (a : Arguments) (name : String) : Option (List Value) := (get? a name).bind Value.asList?

/-- An argument as a handler looks at it; null when there is nothing to see. -/
def view (a : Arguments) (view : ArgumentView) (name : String) : Value :=
  match view with
  | .any => (get? a name).getD .null
  | .text => ((text? a name).map Value.string).getD .null
  | .integer => ((int? a name).map Value.int).getD .null
  | .list => ((list? a name).map Value.list).getD .null

end Arguments

end RecordGraph
