import RecordGraph.Proofs.Dictionary
import RecordGraph.Resolve.Handler
import RecordGraph.Scalar.Codec
import RecordGraph.Scalar.Enum
/-! Values without their mutate handlers. A value is bare when no source in it has a mutate handler, however
deep it stands: below attributes, in the answers of other handlers, in sequences and in callables. What a
value looks like from outside, its texts, its wire form and its other handlers, does not depend on the
mutate handlers that are taken away. -/

namespace RecordGraph

mutual

/-- A value without mutate handlers. -/
def Value.bare : Value → Value
  | .null => .null
  | .bool b => .bool b
  | .number n => .number n
  | .string s => .string s
  | .list items => .list (Value.bareItems items)
  | .mapping entries => .mapping (Value.bareEntries entries)
  | .moment m => .moment m
  | .decimal d => .decimal d
  | .member enumName name => .member enumName name
  | .source s => .source s.bare
  | .callable h => .callable h.bare

/-- The items of a list without mutate handlers. -/
def Value.bareItems : List Value → List Value
  | [] => []
  | item :: rest => item.bare :: Value.bareItems rest

/-- The entries of a mapping without mutate handlers. -/
def Value.bareEntries : List (String × Value) → List (String × Value)
  | [] => []
  | (key, value) :: rest => (key, value.bare) :: Value.bareEntries rest

/-- A source without mutate handlers. -/
def Source.bare : Source → Source
  | .mk typeName attributes resolve _ message =>
    .mk typeName (Value.bareEntries attributes) (Handler.bareEntries resolve) [] (Handler.bareEntries message)

/-- A handler whose answers have no mutate handlers, as far as it has them itself. -/
def Handler.bare : Handler → Handler
  | .give v => .give v.bare
  | .fail message => .fail message
  | .emit items => .emit (Emission.bareItems items)
  | .describe => .describe
  | .describeLine => .describeLine
  | .argument view name => .argument view name
  | .defer h => .defer h.bare
  | .native name => .native name

/-- Handlers whose answers have no mutate handlers. -/
def Handler.bareEntries : List (String × Handler) → List (String × Handler)
  | [] => []
  | (key, h) :: rest => (key, h.bare) :: Handler.bareEntries rest

/-- A step of a sequence without mutate handlers. -/
def Emission.bare : Emission → Emission
  | .value v => .value v.bare
  | .failure message => .failure message

/-- A sequence without mutate handlers. -/
def Emission.bareItems : List Emission → List Emission
  | [] => []
  | item :: rest => item.bare :: Emission.bareItems rest

end

namespace Value

theorem bareItems_eq (items : List Value) : bareItems items = items.map bare := by
  induction items with
  | nil => rfl
  | cons item rest ih => rw [bareItems, ih, List.map_cons]

theorem bareEntries_eq (entries : List (String × Value)) : bareEntries entries = Entries.each bare entries := by
  induction entries with
  | nil => rfl
  | cons entry rest ih =>
    rw [bareEntries, ih]
    rfl

theorem get?_bareEntries (entries : List (String × Value)) (name : String) :
    Entries.get? (bareEntries entries) name = (Entries.get? entries name).map bare := by
  rw [bareEntries_eq, Entries.get?_each]

theorem bare_list (items : List Value) : bare (.list items) = .list (items.map bare) := by
  rw [bare, bareItems_eq]

theorem bare_mapping (entries : List (String × Value)) :
    bare (.mapping entries) = .mapping (Entries.each bare entries) := by
  rw [bare, bareEntries_eq]

@[simp] theorem isNull_bare (v : Value) : v.bare.isNull = v.isNull := by cases v <;> rfl

@[simp] theorem asText?_bare (v : Value) : v.bare.asText? = v.asText? := by cases v <;> rfl

@[simp] theorem asInt64?_bare (v : Value) : v.bare.asInt64? = v.asInt64? := by cases v <;> rfl

theorem asList?_bare (v : Value) : v.bare.asList? = v.asList?.map (List.map bare) := by
  cases v with
  | list items => rw [bare_list]; rfl
  | _ => rfl

@[simp] theorem typeName?_bare (v : Value) : v.bare.typeName? = v.typeName? := by
  cases v with
  | source s => cases s; rfl
  | mapping entries =>
    change (Entries.get? (bareEntries entries) "__typename").bind asText? = _
    rw [get?_bareEntries, Option.bind_map]
    exact congrArg _ (funext asText?_bare)
  | _ => rfl

mutual

theorem text_bare (v : Value) : v.bare.text = v.text := by
  match v with
  | .list items => rw [bare, text, text, itemTexts_bare items]
  | .mapping entries => rw [bare, text, text, entryTexts_bare entries]
  | .source (.mk ..) => rfl
  | .null | .bool _ | .number _ | .string _ | .moment _ | .decimal _ | .member .. | .callable _ => rfl

theorem itemTexts_bare (items : List Value) : itemTexts (bareItems items) = itemTexts items := by
  match items with
  | [] => rfl
  | item :: rest => rw [bareItems, itemTexts, itemTexts, text_bare item, itemTexts_bare rest]

theorem entryTexts_bare (entries : List (String × Value)) :
    entryTexts (bareEntries entries) = entryTexts entries := by
  match entries with
  | [] => rfl
  | (key, value) :: rest => rw [bareEntries, entryTexts, entryTexts, text_bare value, entryTexts_bare rest]

end

mutual

theorem toWire_bare (v : Value) : v.bare.toWire = v.toWire := by
  match v with
  | .list items => rw [bare, toWire, toWire, itemsToWire_bare items]
  | .mapping entries => rw [bare, toWire, toWire, entriesToWire_bare entries]
  | .source _ | .callable _ => rfl
  | .null | .bool _ | .number _ | .string _ | .moment _ | .decimal _ | .member .. => rfl

theorem itemsToWire_bare (items : List Value) : itemsToWire (bareItems items) = itemsToWire items := by
  match items with
  | [] => rfl
  | item :: rest => rw [bareItems, itemsToWire, itemsToWire, toWire_bare item, itemsToWire_bare rest]

theorem entriesToWire_bare (entries : List (String × Value)) :
    entriesToWire (bareEntries entries) = entriesToWire entries := by
  match entries with
  | [] => rfl
  | (key, value) :: rest =>
    rw [bareEntries, entriesToWire, entriesToWire, toWire_bare value, entriesToWire_bare rest]

end

end Value

namespace Handler

theorem bareEntries_eq (entries : List (String × Handler)) : bareEntries entries = Entries.each bare entries := by
  induction entries with
  | nil => rfl
  | cons entry rest ih =>
    rw [bareEntries, ih]
    rfl

end Handler

namespace Value

/-- The other handlers of a value stay. -/
theorem resolveHandler?_bare (v : Value) (field : String) :
    v.bare.resolveHandler? field = (v.resolveHandler? field).map Handler.bare := by
  cases v with
  | source s =>
    obtain ⟨name, attributes, resolve, mutate, message⟩ := s
    change Entries.get? (Handler.bareEntries resolve) field = (Entries.get? resolve field).map Handler.bare
    rw [Handler.bareEntries_eq, Entries.get?_each]
  | _ => rfl

end Value

/-! Leaves are written as what can be seen of them. -/

/-- A codec writes values without regard to mutate handlers. -/
def ScalarCodec.Blind (c : ScalarCodec) : Prop := ∀ v : Value, c.serialize v.bare = c.serialize v

namespace ScalarCodec

theorem refuse_bare {α : Type} (scalar : String) (v : Value) :
    (refuse scalar v.bare : Except CodecError α) = refuse scalar v := by
  rw [refuse, refuse, Value.text_bare]

theorem idText?_bare (v : Value) : idText? v.bare = idText? v := by cases v <;> rfl

theorem blind_int : int.Blind := by
  intro v
  simp only [int, Value.asInt64?_bare, refuse_bare]

theorem blind_id : id.Blind := by
  intro v
  simp only [id, idText?_bare, refuse_bare]

theorem blind_float : float.Blind := by
  intro v
  cases v <;> first | rfl | exact refuse_bare "Float" _

theorem blind_boolean : boolean.Blind := by
  intro v
  cases v <;> first | rfl | exact refuse_bare "Boolean" _

theorem blind_string : string.Blind := by
  intro v
  cases v <;> first | rfl | exact refuse_bare "String" _

theorem blind_dateTime : dateTime.Blind := by
  intro v
  cases v <;> first | rfl | exact refuse_bare "DateTime" _

theorem blind_decimal : decimal.Blind := by
  intro v
  cases v <;> first | rfl | exact refuse_bare "Decimal" _

theorem blind_dictionary : dictionary.Blind := by
  intro v
  cases v with
  | mapping entries =>
    have hwire := Value.toWire_bare (.mapping entries)
    have hrefuse := refuse_bare (α := WireValue) "Dictionary" (.mapping entries)
    rw [Value.bare] at hwire hrefuse
    simp only [Value.bare, dictionary, hwire, hrefuse]
  | _ => first | rfl | exact refuse_bare "Dictionary" _

/-- The scalars that every schema knows are written without regard to mutate handlers. -/
theorem blind_defaultScalars {t : ScalarType} (ht : t ∈ defaultScalars) : t.codec.Blind := by
  simp only [defaultScalars, List.mem_cons, List.not_mem_nil, or_false] at ht
  rcases ht with rfl | rfl | rfl | rfl | rfl | rfl | rfl | rfl | rfl
  exacts [blind_int, blind_int, blind_float, blind_boolean, blind_string, blind_id, blind_dateTime,
    blind_dictionary, blind_decimal]

end ScalarCodec

namespace EnumType

theorem serialize_bare (e : EnumType) (v : Value) : e.serialize v.bare = e.serialize v := by
  cases v <;> first | rfl | exact congrArg (Except.error <| CodecError.serialize e.name ·) (Value.text_bare _)

/-- What an enum reads is a member, and no source. -/
theorem bare_parse (e : EnumType) (w : WireValue) : (e.parse w).map Value.bare = e.parse w := by
  cases w with
  | member name | string name =>
    change ((e.check name).map fun _ => Value.member e.name name).map Value.bare = _
    cases h : e.check name <;> simp only [parse, h] <;> rfl
  | _ => rfl

end EnumType

end RecordGraph
