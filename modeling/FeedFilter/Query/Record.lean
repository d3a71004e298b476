import FeedFilter.Json.Printer
import FeedFilter.Json.Reader
import FeedFilter.Query.Error

namespace FeedFilter.Query

-- A query is given as an object, or as a string with the text of an object. It has to be truthy
-- before all else, and a string is read once: a text that holds a string is no query.
def record (query : Json) : Except QueryError Members :=
  if query.isTruthy then
    match query with
    | .obj members => .ok members
    | .str text =>
      match Json.read text with
      | .ok (.obj members) => .ok members
      | .ok value => .error (.notRecord value.kind true)
      | .error complaint => .error (.notJson complaint)
    | value => .error (.notRecord value.kind false)
  else .error (.falsy query.compact)

-- A query as it is quoted in a message: a text as it is, all else as JSON.
def shown : Json → String
  | .str text => text
  | query => query.compact

-- A field that has to be there and be a string.
def textField (members : Members) (name : String) : Except QueryError String :=
  match members.lookup name with
  | none => .error (.missingField name)
  | some (.str text) => .ok text
  | some _ => .error (.wrongField name "a string")

end FeedFilter.Query
