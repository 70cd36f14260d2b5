import RecordGraph.Resolve.Page
import RecordGraph.Text.Letter
/-!
Options of a schema that are read from named variables: switches and positive limits. A variable
that is not set leaves the default.
-/

namespace RecordGraph

/-- A variable whose text says nothing. -/
inductive SettingError where
  | invalidSwitch (key value : String)
  | invalidLimit (key value : String)
  deriving DecidableEq, Repr

/-- The wording of a setting error. -/
def SettingError.message : SettingError → String
  | .invalidSwitch key value =>
    "`" ++ key ++ "` must be one of true, false, 1, 0, yes, no, on or off, found `" ++ value ++ "`"
  | .invalidLimit key value =>
    "`" ++ key ++ "` must be a positive integer, found `" ++ value ++ "`"

/-- Variables by name. -/
abbrev Variables := Entries String

/-- The engine settings of a schema. -/
structure EngineSettings where
  camelCase : Bool := true
  depthLimit : Option Nat := none
  complexityLimit : Option Nat := none
  introspection : Bool := true
  deriving DecidableEq, Repr

namespace Variables

/-- The text of a switch in lower case, without blanks around it. -/
def switchText (value : String) : String :=
  String.ofList ((Text.trimBlanks value.toList).flatMap Text.lowercase)

/-- A switch. -/
def switch (v : Variables) (key : String) (default : Bool) : Except SettingError Bool :=
  match Entries.get? v key with
  | none => .ok default
  | some value =>
    let text := switchText value
    if ["true", "1", "yes", "on"].contains text then .ok true
    else if ["false", "0", "no", "off"].contains text then .ok false
    else .error (.invalidSwitch key value)

/-- A positive limit. -/
def limit (v : Variables) (key : String) : Except SettingError (Option Nat) :=
  match Entries.get? v key with
  | none => .ok none
  | some value =>
    match readUnsigned? (String.ofList (Text.trimBlanks value.toList)) with
    | some n => if 0 < n.toNat then .ok (some n.toNat) else .error (.invalidLimit key value)
    | none => .error (.invalidLimit key value)

end Variables

/-- The settings that variables ask for. The first variable at fault is reported. -/
def EngineSettings.ofVariables (v : Variables) : Except SettingError EngineSettings := do
  let defaults : EngineSettings := {}
  let camelCase ← v.switch "GRAPH_CAMELCASE" defaults.camelCase
  let depthLimit ← v.limit "GRAPH_MAX_DEPTH"
  let complexityLimit ← v.limit "GRAPH_MAX_COMPLEXITY"
  let introspection ← v.switch "GRAPH_INTROSPECTION" defaults.introspection
  return ⟨camelCase, depthLimit, complexityLimit, introspection⟩

end RecordGraph
