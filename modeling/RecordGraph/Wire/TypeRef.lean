/-!
References to types on the wire. A reference names a type and wraps it in lists and non-null marks.
-/

namespace RecordGraph

/-- A reference to a type by name. -/
inductive TypeRef where
  | named (name : String)
  | nonNull (inner : TypeRef)
  | list (element : TypeRef)
  deriving DecidableEq, Repr, Inhabited

namespace TypeRef

/-- The type whose values are never null; it has one mark only. -/
def required : TypeRef → TypeRef
  | .nonNull inner => .nonNull inner
  | type => .nonNull type

/-- Whether null is no value of the type. -/
def isNonNull : TypeRef → Bool
  | .nonNull _ => true
  | _ => false

/-- The type without its outermost mark, if it has one. -/
def unmarked : TypeRef → TypeRef
  | .nonNull inner => inner
  | type => type

/-- The name at the core of a reference. -/
def base : TypeRef → String
  | .named name => name
  | .nonNull inner => inner.base
  | .list element => element.base

/-- The text of a reference. -/
def text : TypeRef → String
  | .named name => name
  | .nonNull inner => inner.text ++ "!"
  | .list element => "[" ++ element.text ++ "]"

end TypeRef

end RecordGraph
