import RecordGraph.Value.Host
/-!
Pages of counted connections. Cursors are offsets into the list of all elements: a page starts after
its cursor and holds as many elements as asked for.
-/

namespace RecordGraph

/-- An unsigned 64-bit integer, with an optional plus sign. -/
def readUnsigned? (text : String) : Option UInt64 :=
  let digits := match text.toList with
    | '+' :: rest => rest
    | chars => chars
  if digits = [] ∨ !digits.all Char.isDigit then none
  else
    let n := digits.foldl (fun n c => n * 10 + (c.toNat - 48)) 0
    if n < 0x10000000000000000 then some (UInt64.ofNat n) else none

/-- A page of a list of elements. -/
structure Page where
  /-- The elements of the page with their offsets. -/
  edges : List (Nat × Value)
  hasNext : Bool
  hasPrevious : Bool
  total : Nat

namespace Page

/-- Where a page starts: after the offset that its cursor names, at the front when the cursor is no
offset. Offsets are 64-bit words. -/
def start (after : Option String) : Nat :=
  match after.bind readUnsigned? with
  | some offset => (offset + 1).toNat
  | none => 0

/-- How many elements a page may hold. -/
def limit (total : Nat) (first : Option Int64) : Nat :=
  match first with
  | some n => n.toInt.toNat
  | none => total

/-- The page after a cursor, of at most `first` elements. -/
def cut (elements : List Value) (after : Option String) (first : Option Int64) : Page :=
  let total := elements.length
  let start := start after
  let edges := ((elements.zipIdx.drop start).take (limit total first)).map fun (v, i) => (i, v)
  { edges := edges, hasNext := decide (start + edges.length < total), hasPrevious := decide (0 < start)
    total := total }

/-- The cursor of an edge, or null. -/
def cursor : Option (Nat × Value) → Value
  | some (offset, _) => .string (toString offset)
  | none => .null

/-- The host value of a page. -/
def toValue (p : Page) : Value :=
  .mapping
    [("total_count", .count p.total),
     ("page_info", .mapping
       [("has_next", .bool p.hasNext), ("has_previous", .bool p.hasPrevious),
        ("start_cursor", cursor p.edges.head?), ("end_cursor", cursor p.edges.getLast?)]),
     ("edges", .list (p.edges.map fun (offset, node) =>
       .mapping [("node", node), ("cursor", .string (toString offset))]))]

end Page

end RecordGraph
