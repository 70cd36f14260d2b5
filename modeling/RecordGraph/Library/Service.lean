import RecordGraph.Library.Collection
import RecordGraph.Library.Records
/-!
The library as a service. Books that clients create are appended to a store; every one of them gets
the number after the last one.
-/

namespace RecordGraph.Library

/-- The books that clients have created. -/
structure Store where
  created : List Value := []

namespace Store

/-- How many books there are. -/
def total (s : Store) : Nat := books.length + s.created.length

/-- Appends books, and answers their identifiers. -/
def add (s : Store) (more : List Value) : Store × List Value :=
  ({ created := s.created ++ more },
    (List.range' (s.total + 1) more.length).map fun n => .string (toString n))

end Store

/-- The author with the identifier asked for, or null. -/
def findAuthor (a : Arguments) : Value :=
  ((a.text? "id").bind fun id => authors.find? fun author => author.id == id).elim .null
    AuthorEntry.toValue

/-- The books by authors of the gender asked for. -/
def findByGender (a : Arguments) : Except FieldError Value := do
  let gender ← (a.get? "gender").mapM fun g => (Gender.ofValue g).mapError FieldError.codec
  return .list ((authors.filter fun author => some author.gender == gender).flatMap fun author =>
    booksOf author.id)

/-- Creates the books asked for. -/
def createBooks (a : Arguments) : Hosted Store Answer := do
  let store ← get
  let (store, ids) := store.add ((a.list? "books").getD [])
  set store
  return .value (.list ids)

/-- The text of a review as subscribers see it. -/
def announceReview (a : Arguments) : Value :=
  .string ("review: " ++ (a.text? "message").getD "")

/-- What the library computes itself. -/
def host : Host Store where
  native name _ arguments :=
    match name with
    | "author" => return .value (findAuthor arguments)
    | "books_by_gender" => return .value (← liftM (findByGender arguments))
    | "create_books" => createBooks arguments
    | "reviews_posted" => return .value (announceReview arguments)
    | name => throw (.resolver ("No native handler `" ++ name ++ "`"))

/-- All authors, as a connection shows them. -/
def authorEdges : Value :=
  .mapping [("edges", .list (authors.map fun author =>
    .mapping [("node", author.toValue), ("cursor", .string author.id)]))]

/-- The values whose fields clients ask for. -/
def rootValues : RootValues :=
  { query := .source (.mk "Query" [("categories", .list [fiction])]
      [("author", .native "author"),
       ("authors", .give (.list (authors.map AuthorEntry.toValue))),
       ("books_by_gender", .native "books_by_gender"),
       ("books_connection", .give (.list books)),
       ("authors_connection", .give authorEdges)] [] [])
    mutation := .source (.mk "Mutation" [] [] [("create_books", .native "create_books")] [])
    subscription :=
      .source (.mk "Subscription" [] [] [] [("reviews_posted", .native "reviews_posted")]) }

/-- What the schema of the library is built from. -/
def source : SchemaSource :=
  { catalogue := catalogue
    records := { query := queries, mutation := some mutations, subscription := some subscriptions }
    values := rootValues }

/-- The library in service. -/
def service (settings : EngineSettings) : Except SchemaError (Service Store) :=
  Service.build host settings source

end RecordGraph.Library
