import EventJournal.Event

/-!
# Values bound to statements

The text of a statement never holds a value of a caller. Values are bound to the
numbered places of the text, each with a type of the database; a bound null keeps the
type of its place.
-/

namespace EventJournal

/-- A value for one place of a statement. -/
inductive SqlValue where
  | text (value : Option String)
  | int (value : Int32)
  | bigint (value : Option Int64)
  | uuid (value : Option Uuid)
  | json (value : Json)
  | texts (values : List String)
  | uuids (values : List Uuid)
  | bigints (values : List Int64)
  deriving Inhabited

namespace SqlValue

/-- The name of a value's type. -/
def typeLabel : SqlValue → String
  | .text _ => "text"
  | .int _ => "int"
  | .bigint _ => "bigint"
  | .uuid _ => "uuid"
  | .json _ => "json"
  | .texts _ => "texts"
  | .uuids _ => "uuids"
  | .bigints _ => "bigints"

/-- The value without its type. -/
def content : SqlValue → Json
  | .text value => .ofOption .text value
  | .int value => .int value.toInt
  | .bigint value => .ofOption (fun n => .int n.toInt) value
  | .uuid value => .ofOption Uuid.toJson value
  | .json value => value
  | .texts values => .ofList .text values
  | .uuids values => .ofList Uuid.toJson values
  | .bigints values => .ofList (fun n => .int n.toInt) values

def toJson (v : SqlValue) : Json := .object [("t", .text v.typeLabel), ("v", v.content)]

end SqlValue

end EventJournal
