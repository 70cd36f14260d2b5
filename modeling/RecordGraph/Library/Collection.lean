import RecordGraph.Library.Gender
/-!
The books and authors that a library starts with.
-/

namespace RecordGraph.Library

/-- An author on file. -/
structure AuthorEntry where
  id : String
  name : String
  gender : Gender
  /-- Latitude and longitude. -/
  location : Option (Binary64 × Binary64) := none

/-- The authors on file. -/
def authors : List AuthorEntry :=
  [{ id := "1", name := "Ada", gender := .female
     location := some (.ofDecimal false 515 (-1), .ofDecimal true 12 (-2)) },
   { id := "2", name := "Leo", gender := .male }]

/-- The category of novels. -/
def fiction : Value := .mapping [("id", .string "1"), ("name", .string "Fiction")]

/-- What is on file about every book. -/
def bookEntries (id title authorId : String) : List (String × Value) :=
  [("id", .string id), ("title", .string title), ("author_id", .string authorId),
   ("page_count", .int 100)]

/-- When the first book was published. -/
def firstPublished : Moment := ⟨2019, 7, 1, 9, 30, 0, 0, 120⟩

/-- The books on file. -/
def books : List Value :=
  [.mapping (bookEntries "1" "X" "1" ++
     [("price", .decimal ⟨1250, 2⟩), ("published", .moment firstPublished),
      ("category", fiction)]),
   .mapping (bookEntries "2" "Y" "2")]

/-- The books of an author. -/
def booksOf (authorId : String) : List Value :=
  books.filter fun book => (book.get? "author_id").bind Value.asText? == some authorId

namespace AuthorEntry

/-- Where an author lives, if that is known. -/
def locationValue (a : AuthorEntry) : List (String × Value) :=
  match a.location with
  | some (latitude, longitude) =>
    [("location", .mapping
      [("latitude", .number (.float latitude)), ("longitude", .number (.float longitude))])]
  | none => []

/-- An author as a value. Nobody tells their age. -/
def toValue (a : AuthorEntry) : Value :=
  .source (.mk "Author"
    ([("id", .string a.id), ("name", .string a.name), ("gender", a.gender.toValue)] ++
      a.locationValue ++ [("books", .list (booksOf a.id))])
    [("age", .fail (a.name ++ " does not disclose their age"))] [] [])

end AuthorEntry

end RecordGraph.Library
