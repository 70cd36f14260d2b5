import RecordGraph.Build.Draft
/-!
The walk from host types to wire types. A named type is registered before its fields are built, so a
record that leads back to itself finds its own registration. The walk is one step that is given the
walk to use below it; tying the steps together is left to `Walker.within`.
-/

namespace RecordGraph

/-- The two directions of the walk. Non-null marks are left to the fields. -/
structure Walker where
  /-- The wire type of a host type used as the type of an output field. -/
  output : HostType → Build TypeRef
  /-- The wire type of a host type used as the type of an argument or input field. -/
  input : HostType → Build TypeRef

namespace Build

/-- The wire form of a declared default. -/
def defaultValue (name : String) : Option Value → Build (Option WireValue)
  | none => return none
  | some value =>
    match value.toWire with
    | .ok w => return some w
    | .error cause => throw (.invalidDefault name cause)

/-- The name of the record that a type is made of, through lists and optionals. -/
def recordName? (s : Setting) : HostType → Option String
  | .record key => some ((HostType.record key).name s.catalogue)
  | .list inner | .optional inner => recordName? s inner
  | .named name => if (s.record? name).isSome || (s.interface? name).isSome then some name else none
  | _ => none

/-- An argument of a field. -/
def argument (s : Setting) (w : Walker) (field : String) (a : Argument) : Build WireArgument := do
  if !a.isInput then
    if let some type := recordName? s a.type then
      throw (.argumentShape field a.name type)
  let type ← w.input a.type
  let default ← defaultValue a.name a.default
  return { name := s.wireName a.name, hostName := a.name, description := a.description,
           type := if a.required then type.required else type, default := default }

/-- The arguments that every connection field has, with their host scalars. -/
def pagingArguments : List (String × String × String) :=
  [("first", "i64", "Retrieve only the first `n` nodes of this connection"),
   ("last", "i64", "Retrieve only the last `n` nodes of this connection"),
   ("before", "String", "Retrieve nodes for this connection before this cursor"),
   ("after", "String", "Retrieve nodes for this connection after this cursor")]

/-- Adds a paging argument, unless an argument has its name. -/
def addPagingArgument (s : Setting) (arguments : List WireArgument) :
    String × String × String → Build (List WireArgument)
  | (name, hostScalar, description) => do
    if arguments.any fun a => a.name == name then return arguments
    let type ← scalar s hostScalar
    return arguments ++
      [{ name := name, hostName := name, description := some description, type := type }]

/-- An output field. -/
def outputField (s : Setting) (w : Walker) (f : Field) : Build WireField := do
  let type ← w.output f.type
  let arguments ← f.arguments.mapM (argument s w f.name)
  let (arguments, connection) ← match f.type.stripOptional with
    | .connection kind element => do
      let arguments ← pagingArguments.foldlM (addPagingArgument s) arguments
      let resolver := (Entries.get? s.catalogue.connections kind).bind ConnectionKind.resolver
      pure (arguments, some ⟨element.name s.catalogue, resolver⟩)
    | _ => pure (arguments, none)
  return { name := s.wireName f.sourceName, hostName := f.sourceName, description := f.description,
           type := if f.isRequired then type.required else type,
           arguments := arguments, connection := connection }

/-- Appends an output field, whose name must be new on its type. -/
def addOutputField (s : Setting) (w : Walker) (type : String) (fields : List WireField)
    (f : Field) : Build (List WireField) := do
  let field ← outputField s w f
  if fields.any fun g => g.name == field.name then throw (.duplicateField field.name type)
  return fields ++ [field]

/-- The output fields of a type, in the order declared. -/
def outputFields (s : Setting) (w : Walker) (type : String) (fields : List Field) :
    Build (List WireField) :=
  (fields.filter Field.inOutput).foldlM (addOutputField s w type) []

/-- Appends an input field, whose name must be new on its type. -/
def addInputField (s : Setting) (w : Walker) (type : String) (fields : List InputField)
    (f : Field) : Build (List InputField) := do
  let fieldType ← w.input f.type
  let name := s.wireName f.sourceName
  if fields.any fun g => g.name == name then throw (.duplicateField name type)
  let default ← defaultValue f.name f.default
  return fields ++
    [{ name := name, hostName := f.sourceName, description := f.description,
       type := if f.isRequired then fieldType.required else fieldType, default := default }]

/-- The input fields of a type, in the order declared. -/
def inputFields (s : Setting) (w : Walker) (type : String) (fields : List Field) :
    Build (List InputField) :=
  (fields.filter Field.inInput).foldlM (addInputField s w type) []

/-- The object types and interfaces of paging, and the type of page information. -/
def pageInfoType : String := "PageInfo"

/-- The interfaces that generated types implement. -/
def isMarker (name : String) : Bool := name == "Node" || name == "Edge" || name == "Connection"

/-- The generated types that are the same for every element. -/
def markerTypes (s : Setting) (id string boolean : TypeRef) : List WireType :=
  let described (field : WireField) (text : String) : WireField :=
    { field with description := some text }
  [.object
    { name := pageInfoType
      fields :=
        [described (s.field "has_next" boolean.required)
          "When paginating forwards, are there more items?",
         described (s.field "has_previous" boolean.required)
          "When paginating backwards, are there more items?",
         described (s.field "start_cursor" string) "Pagination start cursor",
         described (s.field "end_cursor" string) "Pagination end cursor"] },
   .interface { name := "Node", fields := [.plain "id" id.required] },
   .interface
    { name := "Edge", fields := [described (.plain "cursor" string.required) "Pagination cursor"] },
   .interface
    { name := "Connection"
      fields := [described (s.field "page_info" (.named pageInfoType)) "Pagination information"] }]

/-- Registers the generated types that are the same for every element, once. -/
def markers (s : Setting) : Build Unit := do
  match ← type? "Connection" with
  | some (.interface _) => return ()
  | _ =>
    let id ← scalar s "ID"
    let string ← scalar s "String"
    let boolean ← scalar s "bool"
    (markerTypes s id string boolean).forM addUnlessPresent

/-- An interface type with the output fields of a record. -/
def interface (s : Setting) (w : Walker) (r : Record) : Build TypeRef := do
  match ← type? r.name with
  | some (.interface _) => return .named r.name
  | some _ => throw (.nameConflict r.name)
  | none =>
    let draft : InterfaceType := { name := r.name, description := r.description }
    add (.interface draft)
    let fields ← outputFields s w r.name r.fields
    if fields.isEmpty then throw (.emptyType r.name)
    replace (.interface { draft with fields := fields })
    return .named r.name

/-- Makes sure that an interface is registered. -/
def ensureInterface (s : Setting) (w : Walker) (name : String) : Build Unit := do
  match ← type? name with
  | some (.interface _) => return ()
  | some _ => throw (.nameConflict name)
  | none =>
    if isMarker name then markers s
    else match s.interface? name with
      | some r => discard (interface s w r)
      | none => throw (.unmappableType name)

/-- An object type with the output fields of a record, under a name of its own. -/
def objectNamed (s : Setting) (w : Walker) (name : String) (interfaces : List String)
    (r : Record) : Build TypeRef := do
  match ← type? name with
  | some (.object _) => return .named name
  | some _ => throw (.nameConflict name)
  | none =>
    let draft : ObjectType :=
      { name := name, description := r.description, interfaces := interfaces }
    add (.object draft)
    let fields ← outputFields s w name r.fields
    if fields.isEmpty then throw (.emptyType name)
    interfaces.forM (ensureInterface s w)
    replace (.object { draft with fields := fields })
    return .named name

/-- The object type of a record. -/
def object (s : Setting) (w : Walker) (r : Record) : Build TypeRef :=
  objectNamed s w r.name r.interfaces r

/-- The input type of a record has a name of its own, so a record can have both forms. -/
def inputObject (s : Setting) (w : Walker) (r : Record) : Build TypeRef := do
  let name := r.name ++ "Input"
  match ← type? name with
  | some (.inputObject _) => return .named name
  | some _ => throw (.nameConflict name)
  | none =>
    let draft : InputObjectType :=
      { name := name, description := r.description, loader := r.loader }
    add (.inputObject draft)
    let fields ← inputFields s w name r.fields
    if fields.isEmpty then throw (.emptyType name)
    replace (.inputObject { draft with fields := fields })
    return .named name

/-- The record of the elements of a connection. -/
def elementRecord? (s : Setting) (element : HostType) : Option Record :=
  match element.stripOptional with
  | .record key => Entries.get? s.catalogue.records key
  | .named name => s.record? name
  | _ => none

/-- Whether a record has the required identifier that elements need. -/
def hasNodeId (s : Setting) (r : Record) : Bool :=
  r.fields.any fun f =>
    f.inOutput && f.isRequired && s.wireName f.sourceName == "id" &&
      match f.type with
      | .scalar hostName => ((s.scalar? hostName).map ScalarType.wireName) == some "ID"
      | _ => false

/-- The connection type of an element, with its edge and node types. All kinds used with one
element must have the same extra fields. -/
def connection (s : Setting) (w : Walker) (kind : String) (element : HostType) :
    Build TypeRef := do
  match elementRecord? s element with
  | none => throw (.connectionElement (element.name s.catalogue))
  | some r =>
    let name := r.name ++ "Connection"
    let k := (Entries.get? s.catalogue.connections kind).getD {}
    let extra := k.fields.map Field.name
    match ← type? name with
    | some (.object _) =>
      match Entries.get? (← get).connectionFields name with
      | some defined =>
        if defined = extra then return .named name else throw (.connectionKindConflict name)
      | none => return .named name
    | some _ => throw (.nameConflict name)
    | none =>
      if !hasNodeId s r then throw (.connectionElement r.name)
      markers s
      modify fun d => { d with connectionFields := Entries.insert d.connectionFields name extra }
      let draft : ObjectType :=
        { name := name, description := k.description, interfaces := ["Connection"] }
      add (.object draft)
      let nodeName := r.name ++ "Node"
      let edgeName := r.name ++ "Edge"
      let _ ← objectNamed s w nodeName ["Node"] r
      let cursor ← scalar s "String"
      addUnlessPresent (.object
        { name := edgeName
          fields := [.plain "node" (TypeRef.named nodeName).required,
                     .plain "cursor" cursor.required]
          interfaces := ["Edge"] })
      let edges : WireField :=
        { WireField.plain "edges" (TypeRef.list (TypeRef.named edgeName).required).required with
          description := some "Connection edges" }
      let pageInfo : WireField :=
        { s.field "page_info" (.named pageInfoType) with
          description := some "Pagination information" }
      let fields ← outputFields s w name k.fields
      replace (.object { draft with fields := edges :: pageInfo :: fields })
      return .named name

/-- The output type that a reference by name means. -/
def namedOutput (s : Setting) (w : Walker) (name : String) : Build TypeRef := do
  match ← type? name with
  | some (.inputObject _) => throw (.nameConflict name)
  | some _ => return .named name
  | none =>
    match s.interface? name, s.record? name with
    | some r, _ => interface s w r
    | none, some r => object s w r
    | none, none =>
      if isMarker name then
        markers s
        return .named name
      else throw (.unmappableType name)

/-- The input type that a reference by name means. -/
def namedInput (s : Setting) (w : Walker) (name : String) : Build TypeRef := do
  match ← type? name with
  | some (.scalar _) | some (.enum _) | some (.inputObject _) => return .named name
  | _ =>
    match (s.record? name).or (s.interface? name) with
    | some r => inputObject s w r
    | none => throw (.unmappableType name)

end Build

namespace Walker

/-- One step of the walk, with the walk to use below it. -/
def step (s : Setting) (w : Walker) : Walker where
  output
    | .scalar hostName => Build.scalar s hostName
    | .enum key =>
      match Entries.get? s.catalogue.enums key with
      | some type => Build.enum type
      | none => throw (.unmappableType key)
    | .list element => return .list (← w.output element)
    | .optional inner => w.output inner
    | .record key =>
      match Entries.get? s.catalogue.records key with
      | some r => Build.object s w r
      | none => throw (.unmappableType key)
    | .connection kind element => Build.connection s w kind element
    | .named name => Build.namedOutput s w name
  input
    | .scalar hostName => Build.scalar s hostName
    | .enum key =>
      match Entries.get? s.catalogue.enums key with
      | some type => Build.enum type
      | none => throw (.unmappableType key)
    | .list element => return .list (← w.input element)
    | .optional inner => w.input inner
    | .record key =>
      match Entries.get? s.catalogue.records key with
      | some r => Build.inputObject s w r
      | none => throw (.unmappableType key)
    | .connection kind element =>
      throw (.connectionInput ((HostType.connection kind element).name s.catalogue))
    | .named name => Build.namedInput s w name

/-- The walk that gives up below a number of steps. -/
def within (s : Setting) : Nat → Walker
  | 0 => ⟨fun _ => throw .outOfSteps, fun _ => throw .outOfSteps⟩
  | steps + 1 => step s (within s steps)

end Walker

end RecordGraph
