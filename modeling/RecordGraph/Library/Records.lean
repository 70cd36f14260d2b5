import RecordGraph.Library.Gender
import RecordGraph.Service.Basic
/-!
The records of a library: books, their authors and categories, and what clients may ask for, change
and listen to.
-/

namespace RecordGraph.Library

/-- A field of a record. -/
def field (name : String) (type : HostType) : Field := { name := name, type := type }

/-- A required argument. -/
def required (name : String) (type : HostType) : Argument :=
  { name := name, type := type, required := true }

/-- The type of texts. -/
def text : HostType := .scalar "String"

/-- The type of identifiers. -/
def identifier : HostType := .scalar "ID"

/-- The type of integers. -/
def integer : HostType := .scalar "i64"

/-- The type of floats. -/
def float : HostType := .scalar "f64"

/-- Where someone lives. -/
def geoLocation : Record :=
  { name := "GeoLocation", fields := [field "latitude" float, field "longitude" float] }

/-- What a book is about. -/
def category : Record :=
  { name := "Category", fields := [field "id" identifier, field "name" text] }

/-- An author. -/
def author : Record :=
  { name := "Author"
    description := some "A person who wrote at least one book"
    fields :=
      [field "id" identifier, field "name" text, field "gender" (.optional (.enum "Gender")),
       field "age" (.optional integer), field "location" (.optional (.record "GeoLocation")),
       { field "books" (.list (.record "Book")) with readOnly := true }] }

/-- A book. The shelf it stands on is not told. -/
def book : Record :=
  { name := "Book"
    fields :=
      [{ field "id" identifier with readOnly := true },
       field "title" text,
       { field "author_id" identifier with inputOnly := true },
       { field "author" (.optional (.record "Author")) with readOnly := true },
       { field "category" (.optional (.record "Category")) with readOnly := true },
       field "price" (.optional (.scalar "Decimal")),
       field "published" (.optional (.scalar "DateTime")),
       { field "page_count" integer with default := some (.int 0) },
       field "_shelf" text] }

/-- Connections that count all of their elements. -/
def countedConnection : ConnectionKind :=
  { fields := [field "total_count" integer], resolver := some .page }

/-- What clients may ask for. -/
def queries : Record :=
  { name := "Query"
    fields :=
      [{ field "author" (.optional (.record "Author")) with
          arguments := [required "id" identifier] },
       field "authors" (.list (.record "Author")),
       { field "books_by_gender" (.list (.record "Book")) with
          arguments := [required "gender" (.enum "Gender")] },
       field "books_connection" (.connection "CountedConnection" (.record "Book")),
       field "authors_connection" (.connection "Connection" (.record "Author")),
       field "categories" (.list (.record "Category"))] }

/-- What clients may change. -/
def mutations : Record :=
  { name := "Mutation"
    fields :=
      [{ field "create_books" (.list identifier) with
          arguments := [{ required "books" (.list (.record "Book")) with isInput := true }] }] }

/-- What clients may listen to. -/
def subscriptions : Record :=
  { name := "Subscription", fields := [field "books_added" text, field "reviews_posted" text] }

/-- All records, enums and connections of a library. -/
def catalogue : Catalogue :=
  { records :=
      [("GeoLocation", geoLocation), ("Category", category), ("Author", author), ("Book", book)]
    enums := [("Gender", Gender.type)]
    connections := [("CountedConnection", countedConnection), ("Connection", {})] }

end RecordGraph.Library
